import ApiModel.Schema.Arena

namespace ApiModel.Arena

def total (weight : Nat → Nat) (ids : List Nat) : Nat :=
  ids.foldr (fun id sum => weight id + sum) 0

def unvisited (a : Arena) (weight : Nat → Nat) (visited : List Nat) : Nat :=
  total weight ((List.range a.size).filter fun id => !visited.contains id)

theorem total_filter_add (weight : Nat → Nat) (visited : List Nat) {id : Nat}
    (hv : id ∉ visited) {l : List Nat} (hl : l.Nodup) (h : id ∈ l) :
    total weight (l.filter fun i => !(id :: visited).contains i) + weight id =
      total weight (l.filter fun i => !visited.contains i) := by
  induction l with
  | nil => cases h
  | cons j l ih =>
    obtain ⟨hj, hl⟩ := List.nodup_cons.1 hl
    by_cases hij : j = id
    · subst hij
      have hrest : (l.filter fun i => !(j :: visited).contains i) =
          l.filter fun i => !visited.contains i := by
        refine List.filter_congr fun i hi => ?_
        have hne : i ≠ j := fun e => hj (e ▸ hi)
        simp [hne]
      rw [List.filter_cons_of_neg (by simp), List.filter_cons_of_pos (by simpa using hv), hrest]
      simp only [total, List.foldr_cons]
      omega
    · have hid : id ∈ l := (List.mem_cons.1 h).resolve_left fun e => hij e.symm
      have ih := ih hl hid
      by_cases hjv : j ∈ visited
      · rw [List.filter_cons_of_neg (by simp [hjv]), List.filter_cons_of_neg (by simp [hjv])]
        exact ih
      · rw [List.filter_cons_of_pos (by simp [hjv, hij]),
          List.filter_cons_of_pos (by simp [hjv])]
        simp only [total, List.foldr_cons] at ih ⊢
        omega

theorem unvisited_cons (a : Arena) (weight : Nat → Nat) {visited : List Nat} {id : Nat}
    (h : id < a.size) (hv : id ∉ visited) :
    a.unvisited weight (id :: visited) + weight id = a.unvisited weight visited :=
  total_filter_add weight visited hv List.nodup_range (List.mem_range.2 h)

end ApiModel.Arena
