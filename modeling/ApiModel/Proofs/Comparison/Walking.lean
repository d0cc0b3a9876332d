import ApiModel.Proofs.Comparison.Simulates
import ApiModel.Proofs.Document.Loaded
import ApiModel.Proofs.Reachability.Visits

namespace ApiModel.Document

variable {d d' : Document} {v : Visit} {rest : List Visit} {r : Reachability}

theorem visitAll_skip (h : ¬(v.id < d.arena.size ∧ v.id ∉ r.visited)) :
    d.visitAll (v :: rest) r = d.visitAll rest r := by
  rw [visitAll, dif_neg h]

theorem visitAll_error {e : ConversionError} (h : v.id < d.arena.size ∧ v.id ∉ r.visited)
    (hf : d.follow v = .error e) : d.visitAll (v :: rest) r = .error e := by
  rw [visitAll, dif_pos h]
  split
  · next hfound =>
    rw [hf] at hfound
    cases hfound
    rfl
  · next hfound =>
    rw [hf] at hfound
    cases hfound

theorem visitAll_visit {next : List Visit} {entry : Option ReachableSchema}
    (h : v.id < d.arena.size ∧ v.id ∉ r.visited) (hf : d.follow v = .ok (next, entry)) :
    d.visitAll (v :: rest) r =
      d.visitAll (next ++ rest) ⟨v.id :: r.visited, r.entries ++ entry.toList⟩ := by
  rw [visitAll, dif_pos h]
  split
  · next hfound =>
    rw [hf] at hfound
    cases hfound
  · next hfound =>
    rw [hf] at hfound
    cases hfound
    rfl

theorem visitAll_agrees {fits : Nat → Prop} {bad : ConversionError → Prop}
    (hsize : ∀ id, fits id → (id < d'.arena.size ↔ id < d.arena.size))
    (hfollow : ∀ v, fits v.id → Agrees bad (d.follow v) (d'.follow v))
    (hnext : ∀ v next entry, d.follow v = .ok (next, entry) → ∀ w ∈ next, fits w.id)
    (visits : List Visit) (r : Reachability) (hvisits : ∀ v ∈ visits, fits v.id) :
    Agrees bad (d.visitAll visits r) (d'.visitAll visits r) := by
  fun_induction visitAll d visits r with
  | case1 r => exact .of_eq (by rw [visitAll])
  | case2 v rest r hopen e hf =>
    have hv := hvisits v List.mem_cons_self
    have hopen' : v.id < d'.arena.size ∧ v.id ∉ r.visited := ⟨(hsize v.id hv).2 hopen.1, hopen.2⟩
    exact fun he => visitAll_error hopen' ((hfollow v hv).of_error hf he)
  | case3 v rest r hopen next entry hf ih =>
    have hv := hvisits v List.mem_cons_self
    have hopen' : v.id < d'.arena.size ∧ v.id ∉ r.visited := ⟨(hsize v.id hv).2 hopen.1, hopen.2⟩
    rw [visitAll_visit hopen' ((hfollow v hv).of_ok hf)]
    refine ih (List.forall_mem_append.2 ⟨hnext v next entry hf, fun w hw => ?_⟩)
    exact hvisits w (List.mem_cons_of_mem _ hw)
  | case4 v rest r hclosed ih =>
    have hv := hvisits v List.mem_cons_self
    rw [visitAll_skip fun h => hclosed ⟨(hsize v.id hv).1 h.1, h.2⟩]
    exact ih fun w hw => hvisits w (List.mem_cons_of_mem _ hw)

theorem foldlM_keepForced {o : Options} {l : List (String × Nat)}
    (h : ∀ e ∈ l, d.isForced o e.2 = false) (r : Reachability) :
    l.foldlM (d.keepForced o) r = .ok r := by
  induction l with
  | nil => rfl
  | cons e l ih =>
    have hfirst : d.keepForced o r e = .ok r := by
      simp only [keepForced, h e List.mem_cons_self, Bool.false_eq_true, if_false]
      rfl
    rw [List.foldlM_cons, hfirst]
    exact ih fun e he => h e (List.mem_cons_of_mem _ he)

end ApiModel.Document
