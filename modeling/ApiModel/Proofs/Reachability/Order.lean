import ApiModel.Proofs.Reachability.Search
import ApiModel.Proofs.Schema.Ownership

namespace ApiModel

namespace Document

/-- What is visited or to be visited stands in visited schemas only, and no entry encloses one that
came before it. -/
structure Unfolding (d : Document) (visits : List Visit) (r : Reachability) : Prop where
  visited : ∀ id ∈ r.visited, ∀ outer, id ∈ (d.node outer).childIds →
    outer ∈ r.visited ∧ (d.node outer).reference = none
  pending : ∀ v ∈ visits, ∀ outer, v.id ∈ (d.node outer).childIds →
    outer ∈ r.visited ∧ (d.node outer).reference = none
  known : ∀ e ∈ r.entries, e.id ∈ r.visited ∨ d.arena.IsRoot e.id
  order : r.entries.Pairwise fun earlier later => ¬d.arena.Encloses later.id earlier.id

variable {d : Document} {o : Options} {v : Visit} {visits rest next : List Visit}
  {r : Reachability} {entry : Option ReachableSchema}

theorem not_encloses_root {outer id : Nat} (h : d.arena.IsRoot id) :
    ¬d.arena.Encloses outer id := by
  intro hencloses
  obtain ⟨last, _, hlast⟩ := Relation.TransGen.tail'_iff.1 hencloses
  exact h.not_child hlast

namespace Unfolding

theorem outer_visited (h : d.Unfolding visits r) {outer id : Nat} (hid : id ∈ r.visited)
    (hencloses : d.arena.Encloses outer id) :
    outer ∈ r.visited ∧ (d.node outer).reference = none := by
  induction hencloses using Relation.TransGen.head_induction_on with
  | single hchild => exact h.visited _ hid _ hchild
  | head hchild _ ih => exact h.visited _ ih.1 _ hchild

theorem order_append (h : d.Unfolding visits r) {e : ReachableSchema}
    (hnew : ∀ id ∈ r.visited, ¬d.arena.Encloses e.id id) :
    (r.entries ++ [e]).Pairwise fun earlier later => ¬d.arena.Encloses later.id earlier.id := by
  apply List.pairwise_append.2
  refine ⟨h.order, List.pairwise_singleton _ _, fun earlier hearlier later hlater => ?_⟩
  have hlater : later = e := List.mem_singleton.1 hlater
  subst hlater
  rcases h.known earlier hearlier with hvisited | hroot
  · exact hnew earlier.id hvisited
  · exact not_encloses_root hroot

theorem skip (h : d.Unfolding (v :: rest) r) : d.Unfolding rest r where
  visited := h.visited
  pending w hw := h.pending w (List.mem_cons_of_mem _ hw)
  known := h.known
  order := h.order

theorem visit (hd : d.Rooted) (h : d.Unfolding (v :: rest) r) (hv : v.id ∉ r.visited)
    (hnext : ∀ id, id ∈ targets next ↔ d.Leads v.id id) (hentry : d.EntryOf v entry) :
    d.Unfolding (next ++ rest) ⟨v.id :: r.visited, r.entries ++ entry.toList⟩ where
  visited := by
    intro id hid outer hchild
    have hold : outer ∈ r.visited ∧ (d.node outer).reference = none := by
      rcases List.mem_cons.1 hid with rfl | hid
      · exact h.pending v List.mem_cons_self outer hchild
      · exact h.visited id hid outer hchild
    exact ⟨List.mem_cons_of_mem _ hold.1, hold.2⟩
  pending := by
    intro w hw outer hchild
    rcases List.mem_append.1 hw with hw | hw
    · have hleads := (hnext w.id).1 (List.mem_map.2 ⟨w, hw, rfl⟩)
      cases hleads with
      | reference _ htarget => exact absurd hchild (hd.resolve? htarget).not_child
      | part href hpart =>
        have houter : outer = v.id :=
          Arena.parent_unique hchild (SchemaNode.mem_childIds_of_mem_subschemas hpart)
        subst houter
        exact ⟨List.mem_cons_self, href⟩
    · have hold := h.pending w (List.mem_cons_of_mem _ hw) outer hchild
      exact ⟨List.mem_cons_of_mem _ hold.1, hold.2⟩
  known := by
    intro e he
    rcases List.mem_append.1 he with he | he
    · exact (h.known e he).imp_left (List.mem_cons_of_mem _)
    · rw [Option.mem_toList] at he
      subst he
      obtain ⟨_, _, hid, _⟩ := hentry
      exact .inl (hid ▸ List.mem_cons_self)
  order := by
    cases entry with
    | none =>
      rw [Option.toList_none, List.append_nil]
      exact h.order
    | some e =>
      obtain ⟨_, _, hid, _⟩ := hentry
      apply h.order_append
      intro id hvisited hencloses
      rw [hid] at hencloses
      exact hv (h.outer_visited hvisited hencloses).1

theorem record (h : d.Unfolding visits r) {id : Nat} (hroot : d.arena.IsRoot id)
    (href : (d.node id).reference.isSome = true) (path : List String) (kind : SchemaClass) :
    d.Unfolding visits (r.record ⟨id, path, kind⟩) where
  visited := h.visited
  pending := h.pending
  known := by
    intro e he
    rcases List.mem_append.1 he with he | he
    · exact h.known e he
    · rw [List.mem_singleton] at he
      subst he
      exact .inr hroot
  order := by
    apply h.order_append
    intro i hvisited hencloses
    rw [(h.outer_visited hvisited hencloses).2] at href
    cases href

theorem of_roots (h : d.Unfolding [] r) (hroots : ∀ v ∈ visits, d.arena.IsRoot v.id) :
    d.Unfolding visits r where
  visited := h.visited
  pending v hv _ hchild := absurd hchild (hroots v hv).not_child
  known := h.known
  order := h.order

end Unfolding

theorem visitAll_unfolding (hd : d.Rooted) (visits : List Visit) (r : Reachability)
    (h : d.Unfolding visits r) :
    Meets (d.visitAll visits r) (d.Unfolding []) fun _ => True := by
  fun_induction visitAll d visits r with
  | case1 r => exact h
  | case2 => trivial
  | case3 v rest r hopen next entry hfollow ih =>
    obtain ⟨_, hnext, _, hentry⟩ := (follow_meets hd v).of_ok hfollow
    exact ih (h.visit hd hopen.2 hnext hentry)
  | case4 v rest r hopen ih => exact ih h.skip

theorem keepForced_unfolding (hd : d.Rooted) {name : String} {id : Nat}
    (hmem : (name, id) ∈ d.schemas) (h : d.Unfolding [] r) :
    Meets (d.keepForced o r (name, id)) (d.Unfolding []) fun _ => True := by
  have hroot : d.arena.IsRoot id := hd.schemas _ hmem
  have hvisit : ∀ r', d.Unfolding [] r' →
      Meets (d.visitAll [⟨id, [name], false⟩] r') (d.Unfolding []) fun _ => True := by
    intro r' hr'
    apply visitAll_unfolding hd
    exact hr'.of_roots (List.forall_mem_singleton.2 hroot)
  unfold keepForced
  simp only
  split
  · cases href : (d.node id).reference with
    | none =>
      simp only [pure_bind]
      exact hvisit r h
    | some text =>
      simp only [pure_bind]
      cases d.resolveChain text (d.node id).location with
      | error e => trivial
      | ok target =>
        have hsome : (d.node id).reference.isSome = true := by rw [href]; rfl
        exact hvisit _ (h.record hroot hsome [name] .ref)
  · exact h

theorem reachable_unfolding (hd : d.Rooted) (o : Options) :
    Meets (d.reachable o) (d.Unfolding []) fun _ => True := by
  have hempty : d.Unfolding [] {} := ⟨by simp, by simp, by simp, by simp⟩
  have hroots : ∀ v ∈ d.paths.flatMap (·.visits o), d.arena.IsRoot v.id := by
    intro v hv
    exact hd.entryPoint (entryPoint_iff.2 (.inl (List.mem_map.2 ⟨v, hv, rfl⟩)))
  unfold reachable
  apply (visitAll_unfolding hd _ _ (hempty.of_roots hroots)).bind
  intro r _ hr
  refine Meets.foldlM (fun _ r => d.Unfolding [] r) hr ?_
  rintro done ⟨name, id⟩ rest r' hsplit hr'
  have hmem : (name, id) ∈ d.schemas := by simp [hsplit]
  exact keepForced_unfolding hd hmem hr'

theorem entries_order (hd : d.Rooted) (hr : d.reachable o = .ok r) :
    r.entries.Pairwise fun earlier later => ¬d.arena.Encloses later.id earlier.id :=
  ((reachable_unfolding hd o).of_ok hr).order

end Document

end ApiModel
