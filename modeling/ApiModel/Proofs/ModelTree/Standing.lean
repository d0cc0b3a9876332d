import ApiModel.Proofs.ModelTree.Placement
import ApiModel.Proofs.Reachability.Order

namespace ApiModel.ModelTree

inductive Holds (d : Document) (u : Label) (id : Nat) : String → Prop
  | owned {segment : String} : u.kind = .object → d.arena.Owns u.id id segment → Holds d u id segment
  | member {number : Nat} : u.kind = .sealed → (d.node u.id).oneOf[number]? = some id →
      (d.node id).reference = none → Holds d u id ("OneOf" ++ toString number)

def Surrounds (t : ModelTree) (d : Document) (o : Options) (id : Nat) : Prop :=
  ∀ outer kind, d.Recorded o outer kind → kind.needsName = true → d.arena.Encloses outer id →
    t.contains outer = true

def Numbered (t : ModelTree) (index p : Nat) (names wanted : TypeNames) : Prop :=
  ∃ sibling m number, sibling < index ∧ t.parent? sibling = some p ∧
    t.labels[sibling]? = some m ∧ m.names = wanted ∧ 2 ≤ number ∧ names = wanted.numbered number

inductive Stands (d : Document) (o : Options) (t : ModelTree) (index : Nat) (l : Label) : Prop
  | component {name : String} : t.parent? index = none → l.id ∈ d.schemas.values →
      l.names = .root name → Stands d o t index l
  | promoted {name : String} : t.parent? index = none → l.kind.needsName = true →
      l.names = .root name → t.Surrounds d o l.id →
        (∀ u ∈ t.labels, ∀ segment, ¬Holds d u l.id segment) → Stands d o t index l
  | owned {p : Nat} {u : Label} {segment : String} : t.parent? index = some p →
      t.labels[p]? = some u → u.kind = .object → d.arena.Owns u.id l.id segment →
        l.kind.needsName = true →
          l.names = u.names.child segment ∨ t.Numbered index p l.names (u.names.child segment) →
            Stands d o t index l
  | member {p number : Nat} {u : Label} : t.parent? index = some p → t.labels[p]? = some u →
      u.kind = .sealed → (d.node u.id).oneOf[number]? = some l.id →
        (d.node l.id).reference = none → l.names = u.names.child ("OneOf" ++ toString number) →
          Stands d o t index l

structure Standing (d : Document) (o : Options) (t : ModelTree) : Prop where
  stands : ∀ index l, t.labels[index]? = some l → Stands d o t index l
  registered : ∀ names ∈ t.registry.taken, ∃ l ∈ t.labels, l.names = names

variable {d : Document} {o : Options} {r : Reachability} {t t' : ModelTree} {id index p q : Nat}
  {l u : Label} {candidate : TypeNames} {kind : SchemaClass} {parent : Option Nat}
  {segment segment' : String} {entry : ReachableSchema}

namespace Holds

theorem encloses (h : Holds d u id segment) : d.arena.Encloses u.id id := by
  cases h with
  | owned _ howns => exact howns.encloses
  | member _ hmember _ =>
    exact .single (SchemaNode.mem_childIds_of_mem_oneOf (List.mem_of_getElem? hmember))

theorem needsName (h : Holds d u id segment) : u.kind.needsName = true := by
  cases h with
  | owned hk _ => rw [hk]; rfl
  | member hk _ _ => rw [hk]; rfl

theorem not_isRoot (h : Holds d u id segment) : ¬d.arena.IsRoot id :=
  fun hroot => Document.not_encloses_root hroot h.encloses

theorem unique {v : Label} (h : Holds d u id segment) (h' : Holds d v id segment')
    (hu : ¬d.arena.IsMember u.id) (hv : ¬d.arena.IsMember v.id) :
    u.id = v.id ∧ segment = segment' := by
  have hslots : ∀ {w w' : Label} {found : String} {number : Nat}, d.arena.Owns w.id id found →
      (d.node w'.id).oneOf[number]? = some id → False := by
    intro w w' found number howns hmember
    obtain ⟨outer, slot, hslot, hkind⟩ := howns.slot
    obtain ⟨place, hplace⟩ := SchemaNode.mem_oneOf.1 (List.mem_of_getElem? hmember)
    have heq := Arena.slot_unique hslot hplace
    subst heq
    rcases hkind with hholds | ⟨name, hname⟩
    · cases hholds
    · cases hname
  cases h with
  | owned _ howns =>
    cases h' with
    | owned _ howns' => exact howns.unique howns' hu hv
    | member _ hmember _ => exact (hslots howns hmember).elim
  | member _ hmember _ =>
    cases h' with
    | owned _ howns => exact (hslots howns hmember).elim
    | member _ hmember' _ =>
      have huv := Arena.parent_unique
        (SchemaNode.mem_childIds_of_mem_oneOf (List.mem_of_getElem? hmember))
        (SchemaNode.mem_childIds_of_mem_oneOf (List.mem_of_getElem? hmember'))
      rw [← huv] at hmember'
      have hnumber := Arena.oneOf_number_unique hmember hmember'
      exact ⟨huv, by rw [hnumber]⟩

end Holds

theorem owner?_holds (h : t.owner? d id = some (p, segment)) :
    ∃ u, t.labels[p]? = some u ∧ u.kind = .object ∧ d.arena.Owns u.id id segment := by
  obtain ⟨⟨n, i⟩, hmem, hn⟩ := List.exists_of_findSome?_eq_some h
  simp only [Option.ite_none_right_eq_some, Option.map_eq_some_iff, Prod.mk.injEq] at hn
  obtain ⟨hkind, found, howned, rfl, rfl⟩ := hn
  have hnode : t.node? i = some n := List.mk_mem_zipIdx_iff_getElem?.1 hmem
  exact ⟨n.label, getElem?_labels_of_node? hnode, hkind, Arena.owns_of_ownedSegment? howned⟩

theorem not_owns_of_owner? (h : t.owner? d id = none) (hu : u ∈ t.labels) (hk : u.kind = .object) :
    ¬d.arena.Owns u.id id segment := by
  obtain ⟨n, hn, rfl⟩ := List.mem_map.1 hu
  obtain ⟨i, hi⟩ := List.getElem?_of_mem hn
  have hnone := List.findSome?_eq_none_iff.1 h (n, i) (List.mk_mem_zipIdx_iff_getElem?.2 hi)
  have hkind : n.kind = .object := hk
  simp only [hkind, if_true, Option.map_eq_none_iff] at hnone
  exact Arena.not_owns_of_ownedSegment? hnone

theorem namesAt_of_label (hu : t.labels[p]? = some u) : t.namesAt p = u.names := by
  rw [getElem?_labels, Option.map_eq_some_iff] at hu
  obtain ⟨n, hn, rfl⟩ := hu
  exact namesAt_of_node? hn

theorem Sound.index_of_names (h : t.Sound d o) (hl : t.labels[index]? = some l)
    (hu : t.labels[p]? = some u) (hnames : l.names = u.names) : index = p := by
  apply (List.getElem?_inj (by simpa using (List.getElem?_eq_some_iff.1 hl).1) h.names).1
  rw [List.getElem?_map, List.getElem?_map, hl, hu, Option.map_some, Option.map_some, hnames]

theorem Sound.index_of_id (h : t.Sound d o) (hl : t.labels[index]? = some l)
    (hu : t.labels[p]? = some u) (hid : l.id = u.id) : index = p := by
  apply (List.getElem?_inj (by simpa using (List.getElem?_eq_some_iff.1 hl).1) h.ids).1
  rw [List.getElem?_map, List.getElem?_map, hl, hu, Option.map_some, Option.map_some, hid]

theorem Stands.named (h : Stands d o t index l) :
    (t.parent? index = none ∧ ∃ name, l.names = .root name) ∨
      ∃ p u found, t.parent? index = some p ∧ t.labels[p]? = some u ∧
        l.names = u.names.child found := by
  cases h with
  | component hroot _ hnames => exact .inl ⟨hroot, _, hnames⟩
  | promoted hroot _ hnames _ _ => exact .inl ⟨hroot, _, hnames⟩
  | owned hp hu _ _ _ hnames =>
    rcases hnames with hnames | ⟨_, _, number, _, _, _, _, _, hnames⟩
    · exact .inr ⟨_, _, _, hp, hu, hnames⟩
    · rw [TypeNames.numbered_child] at hnames
      exact .inr ⟨_, _, _, hp, hu, hnames⟩
  | member hp hu _ _ _ hnames => exact .inr ⟨_, _, _, hp, hu, hnames⟩

theorem Standing.parent_of_names (h : t.Standing d o) (hs : t.Sound d o)
    (hl : t.labels[index]? = some l) (hu : t.labels[p]? = some u)
    (hnames : l.names = u.names.child segment) : t.parent? index = some p := by
  rcases (h.stands index l hl).named with ⟨_, name, hroot⟩ | ⟨q, v, found, hq, hv, hchild⟩
  · have hlength := congrArg (·.segments.length) (hnames.symm.trans hroot)
    have hnil := (hs.plain u (List.mem_of_getElem? hu)).ne_nil
    simp only [TypeNames.segments_child, TypeNames.root, List.length_append,
      List.length_singleton, Nat.add_eq_right, List.length_eq_zero_iff] at hlength
    exact absurd hlength hnil
  · have hsame := (TypeNames.child_inj (hchild.symm.trans hnames)).1
    rw [hq, hs.index_of_names hv hu hsame]

structure Kept (d : Document) (o : Options) (t t' : ModelTree) : Prop where
  labels : ∀ (i : Nat) l, t.labels[i]? = some l → t'.labels[i]? = some l
  parents : ∀ (i : Nat) l, t.labels[i]? = some l → t'.parent? i = t.parent? i
  fresh : ∀ u ∈ t'.labels, u ∈ t.labels ∨ d.Recorded o u.id u.kind ∧ t.contains u.id = false

theorem label_place_cases
    (h : (t.place id candidate kind parent).2.labels[index]? = some l) :
    t.labels[index]? = some l ∨
      index = t.nodes.length ∧ l = ⟨id, t.registry.nameFor candidate, kind⟩ := by
  rw [labels_place, List.getElem?_append] at h
  split at h
  · exact .inl h
  · next hge =>
    obtain ⟨hindex, hlabel⟩ := List.getElem?_eq_some_iff.1 h
    simp only [List.length_singleton, Nat.lt_one_iff, length_labels] at hindex hge
    simp only [List.getElem_singleton] at hlabel
    exact .inr ⟨by omega, hlabel.symm⟩

@[simp] theorem parent?_place_self :
    (t.place id candidate kind parent).2.parent? t.nodes.length = parent := by
  rw [parent?_place]
  exact if_pos rfl

theorem kept_place (hrec : d.Recorded o id kind) (hnew : t.contains id = false) :
    t.Kept d o (t.place id candidate kind parent).2 where
  labels i l hl := by
    rw [labels_place, List.getElem?_append_left (List.getElem?_eq_some_iff.1 hl).1]
    exact hl
  parents i l hl := by
    have hlt := (List.getElem?_eq_some_iff.1 hl).1
    rw [length_labels] at hlt
    rw [parent?_place]
    exact if_neg (Nat.ne_of_lt hlt)
  fresh := forall_mem_labels_place.2 ⟨fun _ hu => .inl hu, .inr ⟨hrec, hnew⟩⟩

namespace Kept

theorem note (n : Note) : t.Kept d o (t.note n) :=
  ⟨fun _ _ hl => hl, fun _ _ _ => rfl, fun _ hu => .inl hu⟩

theorem contains (h : t.Kept d o t') (hc : t.contains id = true) : t'.contains id = true := by
  obtain ⟨l, hl, hid⟩ := contains_iff.1 hc
  obtain ⟨i, hi⟩ := List.getElem?_of_mem hl
  exact contains_iff.2 ⟨l, List.mem_of_getElem? (h.labels i l hi), hid⟩

theorem surrounds (h : t.Kept d o t') (hs : t.Surrounds d o id) : t'.Surrounds d o id :=
  fun outer kind hrec hk hencloses => h.contains (hs outer kind hrec hk hencloses)

theorem numbered (h : t.Kept d o t') {names wanted : TypeNames}
    (hn : t.Numbered index p names wanted) : t'.Numbered index p names wanted := by
  obtain ⟨sibling, m, number, hlt, hp, hm, hrest⟩ := hn
  exact ⟨sibling, m, number, hlt, (h.parents sibling m hm).trans hp, h.labels sibling m hm, hrest⟩

theorem unheld (h : t.Kept d o t') (hs : t.Surrounds d o id)
    (hfree : ∀ u ∈ t.labels, ∀ segment, ¬Holds d u id segment) :
    ∀ u ∈ t'.labels, ∀ segment, ¬Holds d u id segment := by
  intro u hu segment hholds
  rcases h.fresh u hu with hold | ⟨hrec, hnew⟩
  · exact hfree u hold segment hholds
  · have hplaced := hs u.id u.kind hrec hholds.needsName hholds.encloses
    rw [hnew] at hplaced
    cases hplaced

theorem stands (h : t.Kept d o t') (hl : t.labels[index]? = some l)
    (hs : Stands d o t index l) : Stands d o t' index l := by
  have hparent := h.parents index l hl
  cases hs with
  | component hroot hid hnames => exact .component (hparent.trans hroot) hid hnames
  | promoted hroot hk hnames hsurrounds hfree =>
    exact .promoted (hparent.trans hroot) hk hnames (h.surrounds hsurrounds)
      (h.unheld hsurrounds hfree)
  | owned hp hu huk howns hk hnames =>
    exact .owned (hparent.trans hp) (h.labels _ _ hu) huk howns hk (hnames.imp_right h.numbered)
  | member hp hu huk hmember href hnames =>
    exact .member (hparent.trans hp) (h.labels _ _ hu) huk hmember href hnames

end Kept

theorem Standing.place (h : t.Standing d o) (hrec : d.Recorded o id kind)
    (hnew : t.contains id = false)
    (hstands : Stands d o (t.place id candidate kind parent).2 t.nodes.length
      ⟨id, t.registry.nameFor candidate, kind⟩) :
    (t.place id candidate kind parent).2.Standing d o where
  stands i l hl := by
    rcases label_place_cases hl with hold | ⟨rfl, rfl⟩
    · exact (kept_place hrec hnew).stands hold (h.stands i l hold)
    · exact hstands
  registered := by
    rw [taken_place]
    intro names hnames
    have hlast := t.getElem?_labels_place id candidate kind parent
    rcases List.mem_cons.1 hnames with rfl | hold
    · exact ⟨_, List.mem_of_getElem? hlast, rfl⟩
    · obtain ⟨l, hl, hname⟩ := h.registered names hold
      rw [labels_place]
      exact ⟨l, List.mem_append_left _ hl, hname⟩

theorem nameFor_root (registry : NameRegistry) (name : String) :
    ∃ found, registry.nameFor (.root name) = .root found := by
  apply NameRegistry.nameFor_induct (P := fun names => ∃ found, names = .root found)
  · exact ⟨name, rfl⟩
  · exact fun number => ⟨_, TypeNames.numbered_root name number⟩

theorem surrounds_of_find? (hs : d.Searched o r)
    (horder : r.entries.Pairwise fun earlier later => ¬d.arena.Encloses later.id earlier.id)
    (hfind : r.entries.find? t.isUnplaced = some entry) : t.Surrounds d o entry.id := by
  intro outer kind hrec hk hencloses
  obtain ⟨path, hmem⟩ := (hs.entries outer kind).2 hrec
  obtain ⟨_, before, after, hsplit, hbefore⟩ := List.find?_eq_some_iff_append.1 hfind
  rw [hsplit] at hmem horder
  rcases List.mem_append.1 hmem with hearlier | hlater
  · have hclosed := hbefore _ hearlier
    simpa [isUnplaced, hk] using hclosed
  · rcases List.mem_cons.1 hlater with heq | hafter
    · rw [← heq] at hencloses
      exact absurd hencloses.lt (Nat.lt_irrefl _)
    · have hpair := (List.pairwise_cons.1 (List.pairwise_append.1 horder).2.1).1 _ hafter
      exact absurd hencloses hpair

theorem Standing.numbered (h : t.Standing d o) (hs : t.Sound d o) (hu : t.labels[p]? = some u)
    (segment : String) :
    t.registry.nameFor (u.names.child segment) = u.names.child segment ∨
      t.Numbered t.nodes.length p (t.registry.nameFor (u.names.child segment))
        (u.names.child segment) := by
  by_cases htaken : u.names.child segment ∈ t.registry.taken
  · obtain ⟨m, hm, hnames⟩ := h.registered _ htaken
    obtain ⟨sibling, hsibling⟩ := List.getElem?_of_mem hm
    obtain ⟨number, htwo, hnumber⟩ := NameRegistry.nameFor_of_mem htaken
    have hlt := (List.getElem?_eq_some_iff.1 hsibling).1
    rw [length_labels] at hlt
    exact .inr ⟨sibling, m, number, hlt, h.parent_of_names hs hsibling hu hnames, hsibling, hnames,
      htwo, hnumber⟩
  · exact .inl (NameRegistry.nameFor_of_not_mem htaken)

theorem Standing.member_name (h : t.Standing d o) (hs : t.Sound d o) {number : Nat}
    (hu : t.labels[p]? = some u) (hk : u.kind = .sealed)
    (hmember : (d.node u.id).oneOf[number]? = some id) (hnew : t.contains id = false) :
    t.registry.nameFor (u.names.child ("OneOf" ++ toString number)) =
      u.names.child ("OneOf" ++ toString number) := by
  apply NameRegistry.nameFor_of_not_mem
  intro htaken
  obtain ⟨m, hm, hnames⟩ := h.registered _ htaken
  obtain ⟨i, hi⟩ := List.getElem?_of_mem hm
  have hparent := h.parent_of_names hs hi hu hnames
  have hsame : ∀ {v : Label} {q : Nat}, t.parent? i = some q → t.labels[q]? = some v → v = u := by
    intro v q hq hv
    rw [hparent] at hq
    cases hq
    rw [hu] at hv
    exact (Option.some.inj hv).symm
  cases h.stands i m hi with
  | component hroot _ _ =>
    rw [hparent] at hroot
    cases hroot
  | promoted hroot _ _ _ _ =>
    rw [hparent] at hroot
    cases hroot
  | owned hq hv hvk _ _ _ =>
    rw [hsame hq hv, hk] at hvk
    cases hvk
  | @member q number' v hq hv _ hmember' _ hnames' =>
    have hvu := hsame hq hv
    subst hvu
    have hsegments := (TypeNames.child_inj (hnames.symm.trans hnames')).2
    have hnumber : number = number' :=
      TypeNames.numbered_injective (n := .root "OneOf") (by
        rw [TypeNames.numbered_root, TypeNames.numbered_root, hsegments])
    subst hnumber
    rw [hmember] at hmember'
    exact contains_false_iff.1 hnew m hm (Option.some.inj hmember').symm

theorem Standing.step (hs : d.Searched o r)
    (horder : r.entries.Pairwise fun earlier later => ¬d.arena.Encloses later.id earlier.id)
    (hsound : t.Sound d o) (h : t.Standing d o) (hp : Placement d r t t') : t'.Standing d o := by
  cases hp with
  | note n => exact ⟨fun i l hl => (Kept.note n).stands hl (h.stands i l hl), h.registered⟩
  | @component name id entry hmem hentry hnew =>
    obtain ⟨found, hfound⟩ := nameFor_root t.registry (Naming.typeName name)
    exact h.place (entry?_some hs hentry) hnew
      (.component parent?_place_self (List.mem_map.2 ⟨_, hmem, rfl⟩) hfound)
  | @owned entry p segment he hopen howner =>
    obtain ⟨u, hu, huk, howns⟩ := owner?_holds howner
    have hrec := (hs.entries _ _).1 ⟨_, he⟩
    have hnew := not_contains_of_isUnplaced hopen
    have hnames : t.namesAt p = u.names := namesAt_of_label hu
    have hkept : t.Kept d o
        (t.place entry.id ((t.namesAt p).child segment) entry.kind (some p)).2 :=
      kept_place hrec hnew
    refine h.place hrec hnew (.owned parent?_place_self (hkept.labels _ _ hu) huk howns
      (needsName_of_isUnplaced hopen) ?_)
    rw [hnames] at hkept ⊢
    exact (h.numbered hsound hu segment).imp_right hkept.numbered
  | @promoted entry hfind hnone hfull =>
    obtain ⟨found, hfound⟩ :=
      nameFor_root t.registry (Naming.typeName (" ".intercalate entry.path))
    have hopen : t.isUnplaced entry = true := List.find?_some hfind
    have hrec := (hs.entries _ _).1 ⟨_, List.mem_of_find?_eq_some hfind⟩
    have hnew := not_contains_of_isUnplaced hopen
    have hsurrounds := surrounds_of_find? hs horder hfind
    have hkept : t.Kept d o
        (t.place entry.id (.root (Naming.typeName (" ".intercalate entry.path))) entry.kind
          none).2 := kept_place hrec hnew
    refine h.place hrec hnew (.promoted parent?_place_self (needsName_of_isUnplaced hopen) hfound
      (hkept.surrounds hsurrounds) (hkept.unheld hsurrounds fun u hu segment hholds => ?_))
    cases hholds with
    | owned huk howns => exact not_owns_of_owner? hnone hu huk howns
    | member huk hmember href =>
      have hplaced := hfull u hu huk _ (List.mem_of_getElem? hmember) href
      rw [hnew] at hplaced
      cases hplaced
  | @member p number id u kind hu huk hmember href hnew hkind =>
    have hrec : d.Recorded o id kind := by
      have hstep : Step d o t _ := .member hu huk hmember href hnew hkind
      have hlast := t.getElem?_labels_place id (u.names.child ("OneOf" ++ toString number)) kind
        (some p)
      exact (hsound.step hstep).recorded _ (List.mem_of_getElem? hlast)
    have hkept : t.Kept d o
        (t.place id (u.names.child ("OneOf" ++ toString number)) kind (some p)).2 :=
      kept_place hrec hnew
    exact h.place hrec hnew (.member parent?_place_self (hkept.labels _ _ hu) huk hmember href
      (h.member_name hsound hu huk hmember hnew))

theorem Standing.run (hs : d.Searched o r)
    (horder : r.entries.Pairwise fun earlier later => ¬d.arena.Encloses later.id earlier.id)
    (hp : Placements d r {} t) : t.Standing d o := by
  induction hp with
  | refl => exact ⟨by simp [labels], by simp⟩
  | tail hrun hstep ih =>
    exact ih.step hs horder ((Sound.empty d o).run (Placements.run hs hrun)) hstep

end ApiModel.ModelTree
