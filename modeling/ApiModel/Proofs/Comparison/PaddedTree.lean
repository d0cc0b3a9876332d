import ApiModel.Proofs.Comparison.Building
import ApiModel.Proofs.Comparison.Padded
import ApiModel.Proofs.Union.Resolved

namespace ApiModel

namespace ModelTree

structure Twins (a : Arena) (t t' : ModelTree) : Prop where
  same : ∃ notes, t' = { t with notes := notes }
  inside : ∀ l ∈ t.labels, l.id < a.size

variable {d d' : Document} {o : Options} {t t' : ModelTree} {r : Reachability}

namespace Twins

variable {a : Arena}

theorem empty (a : Arena) : Twins a {} {} := ⟨⟨[], rfl⟩, by simp [labels]⟩

theorem nodes (h : Twins a t t') : t'.nodes = t.nodes := by
  obtain ⟨⟨notes, rfl⟩, _⟩ := h
  rfl

theorem roots (h : Twins a t t') : t'.roots = t.roots := by
  obtain ⟨⟨notes, rfl⟩, _⟩ := h
  rfl

theorem registry (h : Twins a t t') : t'.registry = t.registry := by
  obtain ⟨⟨notes, rfl⟩, _⟩ := h
  rfl

theorem contains (h : Twins a t t') : t'.contains = t.contains := by
  obtain ⟨⟨notes, rfl⟩, _⟩ := h
  rfl

theorem names? (h : Twins a t t') : t'.names? = t.names? := by
  obtain ⟨⟨notes, rfl⟩, _⟩ := h
  rfl

theorem namesAt (h : Twins a t t') : t'.namesAt = t.namesAt := by
  obtain ⟨⟨notes, rfl⟩, _⟩ := h
  rfl

theorem find? (h : Twins a t t') : t'.find? = t.find? := by
  obtain ⟨⟨notes, rfl⟩, _⟩ := h
  rfl

theorem parent? (h : Twins a t t') : t'.parent? = t.parent? := by
  obtain ⟨⟨notes, rfl⟩, _⟩ := h
  rfl

theorem isAncestor (h : Twins a t t') (ancestor index : Nat) :
    t'.isAncestor ancestor index = t.isAncestor ancestor index := by
  rw [ModelTree.isAncestor, ModelTree.isAncestor, h.nodes, lineage_congr h.parent?]

theorem noted (h : Twins a t t') (n : Note) : Twins a t (t'.note n) := by
  obtain ⟨⟨notes, rfl⟩, hinside⟩ := h
  exact ⟨⟨_, rfl⟩, hinside⟩

theorem note (h : Twins a t t') (n : Note) : Twins a (t.note n) (t'.note n) := by
  obtain ⟨⟨notes, rfl⟩, hinside⟩ := h
  exact ⟨⟨_, rfl⟩, hinside⟩

theorem place (h : Twins a t t') {id : Nat} (hid : id < a.size) (candidate : TypeNames)
    (kind : SchemaClass) (parent : Option Nat) :
    Twins a (t.place id candidate kind parent).2 (t'.place id candidate kind parent).2 := by
  obtain ⟨⟨notes, rfl⟩, hinside⟩ := h
  exact ⟨⟨_, rfl⟩, forall_mem_labels_place.2 ⟨hinside, hid⟩⟩

theorem hang (h : Twins a t t') (index parent : Nat) :
    Twins a (t.hang index parent) (t'.hang index parent) := by
  obtain ⟨⟨notes, rfl⟩, hinside⟩ := h
  refine ⟨⟨notes, rfl⟩, ?_⟩
  rwa [labels_hang]

theorem moveUnder (h : Twins a t t') (index parent : Nat) :
    Simulates (Twins a) (t.moveUnder index parent) (t'.moveUnder index parent) := by
  unfold ModelTree.moveUnder
  rw [h.parent?, h.isAncestor]
  simp only
  split
  · exact .error _
  · split
    · exact .error _
    · exact .ok (h.hang index parent)

theorem owner? (h : Twins d.arena t t') (ha : d.arena.Appended d'.arena) (id : Nat) :
    t'.owner? d' id = t.owner? d id := by
  rw [ModelTree.owner?, ModelTree.owner?, h.nodes]
  refine findSome?_congr fun e he => ?_
  have hinside : e.1.id < d.arena.size :=
    h.inside _ (List.mem_map.2 ⟨e.1, List.fst_mem_of_mem_zipIdx he, rfl⟩)
  simp only [ha.ownedSegment? hinside]

theorem nestVariant (h : Twins a t t') (variant : TypeNames) (union : Nat) :
    Simulates (Twins a) (t.nestVariant variant union) (t'.nestVariant variant union) := by
  unfold ModelTree.nestVariant
  rw [h.find?]
  cases t.find? variant with
  | none => exact .error _
  | some index =>
    simp only [h.parent?, h.isAncestor, h.namesAt]
    split
    · exact .ok h
    · exact (h.note _).moveUnder index union

theorem namedReference (h : Twins a t t') (hd : d.Rooted) (hpad : d.Padded o d')
    (reference location : String) : Simulates Eq (t.namedReference d reference location)
      (t'.namedReference d' reference location) := by
  refine (hpad.links hd reference location).bind_same fun links => ?_
  rw [h.names?]
  exact .refl _

theorem parallel (h : d.Padded o d') :
    Parallel d d' (fun id => id < d.arena.size) (Twins d.arena) Eq where
  node _ hid := h.node hid
  member _ _ member hm := (d.arena.child_bounds (SchemaNode.mem_childIds_of_mem_oneOf hm)).2
  same _ := rfl
  length t t' ht := by rw [ht.nodes]
  contains t t' ht id := by rw [ht.contains]
  nameFor t t' ht names := by rw [ht.registry]
  note t t' ht n := ht.note n
  place t t' ht id hid _ p p' hp candidate kind := hp ▸ ht.place hid candidate kind p
  owner t t' ht id _ := by
    rw [ht.owner? h.arena]
    cases t.owner? d id with
    | none => exact .none
    | some x => exact .some ⟨rfl, by rw [ht.namesAt], rfl⟩

end Twins

theorem addComponents_twins (hd : d.Rooted) (h : d.Padded o d')
    (hr : ∀ e ∈ r.entries, e.id < d.arena.size) :
    Simulates (Twins d.arena) (addComponents d r {}) (addComponents d' r {}) := by
  refine h.schemas.foldlM (.empty _) (fun e he t t' ht => ?_) fun e he t t' ht => ?_
  · simp only
    cases r.entry? e.2 with
    | none => exact .ok (ht.note _)
    | some entry =>
      simp only [ht.contains]
      split
      · exact .ok ht
      · next hnew =>
        exact (Twins.parallel h).add ht (hd.schemas e he).1 (Bool.not_eq_true _ ▸ hnew) rfl
  · -- an added component stands behind all that is recorded and is only noted as dropped
    have hnone : r.entry? e.2 = none := by
      refine List.find?_eq_none.2 fun entry hentry heq => ?_
      have hlt := hr entry hentry
      rw [beq_iff_eq.1 heq] at hlt
      exact absurd hlt (Nat.not_lt.2 he.2.1)
    simp only [hnone]
    exact ⟨_, rfl, ht.noted _⟩

theorem build_twins (hd : d.Rooted) (h : d.Padded o d') (hs : d.Searched o r) :
    Simulates (Twins d.arena) (build d r) (build d' r) := by
  have hr : ∀ e ∈ r.entries, e.id < d.arena.size := fun e he =>
    hd.lt_of_reached ((hs.entries _ _).1 ⟨_, he⟩).reached
  exact (Twins.parallel h).build hr (addComponents_twins hd h hr)

end ModelTree

structure Placed.Twins (a : Arena) (p p' : Placed) : Prop where
  tree : ModelTree.Twins a p.tree p'.tree
  unions : p'.unions = p.unions

namespace Unions

variable {d d' : Document} {o : Options} {t t' : ModelTree} {p p' : Placed} {member : Nat}

theorem variant_twins (hd : d.Rooted) (hpad : d.Padded o d') (h : Placed.Twins d.arena p p')
    (union : Nat) (mapping : OrderedMap String String) (hm : member < d.arena.size) :
    Simulates (fun x x' => x'.1 = x.1 ∧ Placed.Twins d.arena x.2 x'.2)
      (variant d union mapping p member) (variant d' union mapping p' member) := by
  unfold variant
  simp only [hpad.node hm, h.unions, h.tree.names?]
  cases (d.node member).reference with
  | some reference =>
    simp only
    refine (h.tree.namedReference hd hpad _ _).bind_same fun names => ?_
    cases Document.schemaName? reference with
    | none => exact .error _
    | some declared =>
      exact (h.tree.nestVariant names union).bind fun u u' _ hu => .ok ⟨rfl, hu, rfl⟩
  | none =>
    simp only
    cases p.tree.names? member with
    | none => exact .error _
    | some names => exact .ok ⟨rfl, h⟩

theorem addMember_twins (hd : d.Rooted) (hpad : d.Padded o d') (union : Nat)
    (mapping : OrderedMap String String) (hm : member < d.arena.size)
    {acc acc' : List SealedVariant × Placed}
    (h : acc'.1 = acc.1 ∧ Placed.Twins d.arena acc.2 acc'.2) :
    Simulates (fun x x' => x'.1 = x.1 ∧ Placed.Twins d.arena x.2 x'.2)
      (addMember d union mapping acc member) (addMember d' union mapping acc' member) := by
  obtain ⟨variants, p⟩ := acc
  obtain ⟨variants', p'⟩ := acc'
  obtain ⟨rfl, hp⟩ := h
  unfold addMember
  simp only [hp.tree.namesAt]
  refine (variant_twins hd hpad hp union mapping hm).bind fun x x' _ hx => ?_
  obtain ⟨v, q⟩ := x
  obtain ⟨v', q'⟩ := x'
  obtain ⟨rfl, hq⟩ := hx
  have hunions : q'.unions = q.unions := hq.unions
  simp only [hunions]
  split
  · exact .error _
  · exact .ok ⟨rfl, hq.tree, rfl⟩

theorem resolveOne_twins (hd : d.Rooted) (hpad : d.Padded o d') (h : Placed.Twins d.arena p p')
    {union : Nat × Nat} (hid : union.2 < d.arena.size) :
    Simulates (Placed.Twins d.arena) (resolveOne d p union) (resolveOne d' p' union) := by
  unfold resolveOne
  simp only [hpad.node hid]
  have hmembers : ∀ member ∈ (d.node union.2).oneOf, member < d.arena.size := fun member hm =>
    (d.arena.child_bounds (SchemaNode.mem_childIds_of_mem_oneOf hm)).2
  refine (Simulates.foldlM ⟨rfl, h⟩ fun member hm acc acc' hacc =>
    addMember_twins hd hpad union.1 _ (hmembers member hm) hacc).bind fun acc acc' _ hacc => ?_
  obtain ⟨hvariants, hp⟩ := hacc
  simp only [hvariants, hp.unions]
  exact .ok ⟨hp.tree, rfl⟩

theorem resolve_twins (hd : d.Rooted) (hpad : d.Padded o d') (h : ModelTree.Twins d.arena t t') :
    Simulates (Placed.Twins d.arena) (resolve d t) (resolve d' t') := by
  have hplaced : placedIn t' = placedIn t := by rw [placedIn, placedIn, h.nodes]
  rw [resolve, resolve, hplaced]
  refine .foldlM ⟨h, rfl⟩ fun union hu p p' hp => resolveOne_twins hd hpad hp ?_
  obtain ⟨n, hn, _, hid⟩ := mem_placedIn.1 hu
  exact hid ▸ h.inside _ (List.mem_map.2 ⟨n, List.mem_of_getElem? hn, rfl⟩)

end Unions

theorem Document.Padded.placed {d d' : Document} {o : Options} (h : d.Padded o d') (hd : d.Rooted)
    (hall : o.generateAllNamedSchemas = false) :
    Simulates (Placed.Twins d.arena) (d.placed o) (d'.placed o) := by
  refine (h.reachable hd hall).bind fun r r' hr heq => ?_
  subst heq
  have hs := (reachable_meets hd o).of_ok hr
  exact (ModelTree.build_twins hd h hs).bind fun t t' _ ht => Unions.resolve_twins hd h ht

end ApiModel
