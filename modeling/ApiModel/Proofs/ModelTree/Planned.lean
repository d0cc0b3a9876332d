import ApiModel.Proofs.ModelTree.Standing

namespace ApiModel.ModelTree

inductive Planned (d : Document) (r : Reachability) : Label → Prop
  | component {name : String} {id : Nat} {entry : ReachableSchema} : (name, id) ∈ d.schemas →
      r.entry? id = some entry → Planned d r ⟨id, .root (Naming.typeName name), entry.kind⟩
  | member {u : Label} {number id : Nat} {kind : SchemaClass} : Planned d r u → u.kind = .sealed →
      (d.node u.id).oneOf[number]? = some id → (d.node id).reference = none →
        classify (d.node id) = .ok kind →
          Planned d r ⟨id, u.names.child ("OneOf" ++ toString number), kind⟩

def Apart (d : Document) (r : Reachability) : Prop :=
  ((d.schemas.filter fun e => (r.entry? e.2).isSome).map fun e => Naming.typeName e.1).Nodup

structure Seeded (d : Document) (r : Reachability) (t : ModelTree) : Prop where
  planned : ∀ l ∈ t.labels, Planned d r l
  registered : t.registry.taken = (t.labels.map (·.names)).reverse

variable {d : Document} {o : Options} {r : Reachability} {t : ModelTree} {l m : Label} {id : Nat}
  {candidate : TypeNames} {kind : SchemaClass} {parent : Option Nat}

theorem Apart.component (h : Apart d r) {e e' : String × Nat} (he : e ∈ d.schemas)
    (he' : e' ∈ d.schemas) (hrec : (r.entry? e.2).isSome = true)
    (hrec' : (r.entry? e'.2).isSome = true) (hname : Naming.typeName e.1 = Naming.typeName e'.1) :
    e = e' :=
  List.inj_on_of_nodup_map h (List.mem_filter.2 ⟨he, hrec⟩) (List.mem_filter.2 ⟨he', hrec'⟩) hname

namespace Planned

theorem names_ne_nil (h : Planned d r l) : l.names.segments ≠ [] := by
  cases h with
  | component _ _ => simp [TypeNames.root]
  | member _ _ _ _ _ => simp

theorem root_ne_child {name segment : String} {n : TypeNames} (hn : n.segments ≠ []) :
    TypeNames.root name ≠ n.child segment := by
  intro heq
  have hlength := congrArg (·.segments.length) heq
  simp only [TypeNames.root, TypeNames.segments_child, List.length_append,
    List.length_singleton, Nat.right_eq_add, List.length_eq_zero_iff] at hlength
  exact hn hlength

theorem eq_of_names (hapart : Apart d r) (h : Planned d r l) (h' : Planned d r m)
    (hnames : l.names = m.names) : l = m := by
  induction h generalizing m with
  | @component name id entry hmem hentry =>
    cases h' with
    | @component name' id' entry' hmem' hentry' =>
      have hname : Naming.typeName name = Naming.typeName name' := by
        simpa [TypeNames.root] using hnames
      cases hapart.component hmem hmem' (by rw [hentry]; rfl) (by rw [hentry']; rfl) hname
      rw [hentry] at hentry'
      cases hentry'
      rfl
    | member hu _ _ _ _ => exact absurd hnames (root_ne_child hu.names_ne_nil)
  | @member u number id kind hu hk hmember href hclass ih =>
    cases h' with
    | component _ _ => exact absurd hnames.symm (root_ne_child hu.names_ne_nil)
    | @member u' number' id' kind' hu' hk' hmember' href' hclass' =>
      obtain ⟨hparents, hsegment⟩ := TypeNames.child_inj hnames
      obtain rfl := ih hu' hparents
      have hnumber : number = number' :=
        TypeNames.numbered_injective (n := .root "OneOf") (by
          rw [TypeNames.numbered_root, TypeNames.numbered_root, hsegment])
      subst hnumber
      rw [hmember] at hmember'
      cases hmember'
      rw [hclass] at hclass'
      cases hclass'
      rfl

theorem eq_of_id (hd : d.Rooted) (h : Planned d r l) (h' : Planned d r m) (hid : l.id = m.id) :
    l = m := by
  have hroot : ∀ {name : String} {id p : Nat}, (name, id) ∈ d.schemas → id ∉ (d.node p).oneOf :=
    fun hmem hmember =>
      (hd.schemas _ hmem).not_child (SchemaNode.mem_childIds_of_mem_oneOf hmember)
  induction h generalizing m with
  | @component name id entry hmem hentry =>
    cases h' with
    | @component name' id' entry' hmem' hentry' =>
      cases List.inj_on_of_nodup_map hd.distinct hmem hmem' hid
      rw [hentry] at hentry'
      cases hentry'
      rfl
    | member _ _ hmember _ _ =>
      simp only at hid
      exact absurd (List.mem_of_getElem? hmember) (hroot (hid ▸ hmem))
  | @member u number id kind hu hk hmember href hclass ih =>
    cases h' with
    | component hmem _ =>
      simp only at hid
      exact absurd (List.mem_of_getElem? hmember) (hroot (hid ▸ hmem))
    | @member u' number' id' kind' hu' hk' hmember' href' hclass' =>
      simp only at hid
      subst hid
      have hunion : u.id = u'.id :=
        Arena.parent_unique (SchemaNode.mem_childIds_of_mem_oneOf (List.mem_of_getElem? hmember))
          (SchemaNode.mem_childIds_of_mem_oneOf (List.mem_of_getElem? hmember'))
      obtain rfl := ih hu' hunion
      rw [Arena.oneOf_number_unique hmember hmember']
      rw [hclass] at hclass'
      cases hclass'
      rfl

end Planned

theorem Seeded.nameFor (h : Seeded d r t) (hapart : Apart d r)
    (hl : Planned d r ⟨id, candidate, kind⟩) (hnew : t.contains id = false) :
    t.registry.nameFor candidate = candidate := by
  apply NameRegistry.nameFor_of_not_mem
  rw [h.registered, List.mem_reverse]
  intro hmem
  obtain ⟨m, hm, hnames⟩ := List.mem_map.1 hmem
  have heq := hl.eq_of_names hapart (h.planned m hm) hnames.symm
  exact contains_false_iff.1 hnew m hm (congrArg Label.id heq).symm

theorem Seeded.place (h : Seeded d r t) (hapart : Apart d r)
    (hl : Planned d r ⟨id, candidate, kind⟩) (hnew : t.contains id = false) :
    Seeded d r (t.place id candidate kind parent).2 where
  planned := by
    rw [forall_mem_labels_place, h.nameFor hapart hl hnew]
    exact ⟨h.planned, hl⟩
  registered := by
    rw [taken_place, labels_place, h.registered, List.map_append, List.reverse_append]
    rfl

theorem add_seeded (hapart : Apart d r) (h : Seeded d r t)
    (hl : Planned d r ⟨id, candidate, kind⟩) (hnew : t.contains id = false) :
    Meets (add d id candidate kind parent t) (Seeded d r) fun _ => True := by
  induction hn : d.arena.size - id using Nat.strongRecOn
    generalizing id candidate kind parent t with
  | ind n ih =>
    subst hn
    have hplaced : Seeded d r (t.place id candidate kind parent).2 := h.place hapart hl hnew
    rw [add_eq, h.nameFor hapart hl hnew]
    split
    · next hk =>
      refine Meets.foldlM (fun _ => Seeded d r) hplaced ?_
      rintro done ⟨member, number⟩ rest u hsplit hu
      obtain ⟨hmember, hbehind⟩ := member_of_turn hsplit
      unfold addInline
      split
      · exact hu
      · next hopen =>
        obtain ⟨href, hfresh⟩ := isOpen_iff.1 hopen
        cases hclass : classify (d.node member) with
        | error e => trivial
        | ok kind' =>
          have hplan : Planned d r ⟨member, _, kind'⟩ := .member hl hk hmember href hclass
          exact ih (d.arena.size - member) (by omega) hu hplan hfresh rfl
    · exact hplaced

theorem addComponents_seeded (hapart : Apart d r) :
    Meets (addComponents d r {}) (Seeded d r) fun _ => True := by
  have hempty : Seeded d r {} := ⟨by simp [labels], rfl⟩
  unfold addComponents
  refine Meets.foldlM (fun _ => Seeded d r) hempty ?_
  rintro done ⟨name, id⟩ rest t hsplit ht
  have hmem : (name, id) ∈ d.schemas := by simp [hsplit]
  simp only
  split
  · next entry hentry =>
    split
    · exact ht
    · next hnew => exact add_seeded hapart ht (.component hmem hentry) (by simpa using hnew)
  · exact ⟨ht.planned, ht.registered⟩

theorem Seeded.mem_labels (h : Seeded d r t) (hd : d.Rooted) (hs : d.Searched o r)
    (hext : Extends d o {} t) (hcomponents : t.HoldsComponents d o d.schemas)
    (hl : Planned d r l) : l ∈ t.labels := by
  have hplaced : ∀ {l : Label}, Planned d r l → t.contains l.id = true → l ∈ t.labels := by
    intro l hl hc
    obtain ⟨m, hm, hid⟩ := contains_iff.1 hc
    exact (h.planned m hm).eq_of_id hd hl hid ▸ hm
  induction hl with
  | component hmem hentry =>
    exact hplaced (.component hmem hentry) (hcomponents _ hmem _ (entry?_some hs hentry))
  | @member u number id kind hu hk hmember href hclass ih =>
    refine hplaced (.member hu hk hmember href hclass) ?_
    rcases hext.full u ih with hnone | hholds
    · cases hnone
    · exact hholds hk id (List.mem_of_getElem? hmember) href

end ApiModel.ModelTree
