import ApiModel.Proofs.ModelTree.Standing
import ApiModel.Union

namespace ApiModel

def Document.InlineMember (d : Document) (union id : Nat) : Prop :=
  id ∈ (d.node union).oneOf ∧ (d.node id).reference = none

instance (d : Document) (union id : Nat) : Decidable (d.InlineMember union id) :=
  inferInstanceAs (Decidable (_ ∧ _))

theorem Document.Recorded.not_isMember {d : Document} (hd : d.Rooted) {o : Options} {id : Nat}
    {kind : SchemaClass} (h : d.Recorded o id kind) : ¬d.arena.IsMember id := by
  rcases h with ⟨_, _, hmember, _⟩ | ⟨⟨⟨name, hmem⟩, _⟩, _⟩
  · exact hmember
  · exact (hd.schemas _ hmem).not_isMember

namespace ModelTree

variable {d : Document} {o : Options} {r : Reachability} {t : ModelTree} {id index p q : Nat}
  {l u : Label} {segment segment' : String}

def OwnedBy (t : ModelTree) (d : Document) (p id : Nat) (segment : String) : Prop :=
  ∃ owner, t.node? p = some owner ∧ owner.kind = .object ∧ d.arena.Owns owner.id id segment

theorem built_of_build (hd : d.Rooted) (hr : d.reachable o = .ok r) (ht : build d r = .ok t) :
    Built d o t ∧ t.Standing d o := by
  have hs := (Document.reachable_meets hd o).of_ok hr
  have hrun := (build_placements hs).of_ok ht
  exact ⟨(build_meets hs).of_ok ht, Standing.run hs (Document.entries_order hd hr) hrun⟩

theorem map_id_labels (t : ModelTree) : t.labels.map (·.id) = t.nodes.map (·.id) := List.map_map

theorem mem_ids_iff : id ∈ t.nodes.map (·.id) ↔ t.contains id = true := by
  rw [← map_id_labels, ModelTree.contains_iff, List.mem_map]

theorem entry?_of_recorded (hs : d.Searched o r) {kind : SchemaClass} (h : d.Recorded o id kind) :
    (r.entry? id).map (·.kind) = some kind := by
  cases hentry : r.entry? id with
  | none => exact absurd h (entry?_none hs hentry)
  | some entry =>
    have hkind := (entry?_some hs hentry).classify
    rw [h.classify] at hkind
    rw [Option.map_some, Except.ok.inj hkind]

theorem Sound.not_isMember (hd : d.Rooted) (h : t.Sound d o) (hl : t.labels[index]? = some l) :
    ¬d.arena.IsMember l.id := (h.recorded l (List.mem_of_getElem? hl)).not_isMember hd

theorem Sound.holder_unique (hd : d.Rooted) (h : t.Sound d o) {v : Label}
    (hu : t.labels[p]? = some u) (hv : t.labels[q]? = some v) (hholds : Holds d u id segment)
    (hholds' : Holds d v id segment') : p = q ∧ segment = segment' := by
  obtain ⟨hid, hsegment⟩ := hholds.unique hholds' (h.not_isMember hd hu) (h.not_isMember hd hv)
  exact ⟨h.index_of_id hu hv hid, hsegment⟩

def Called (t : ModelTree) (p : Nat) (u : Label) (index : Nat) (l : Label) (segment : String) :
    Prop :=
  l.names = u.names.child segment ∨
    u.kind = .object ∧ t.Numbered index p l.names (u.names.child segment)

namespace Standing

theorem held (h : t.Standing d o) (hl : t.labels[index]? = some l) (hp : t.parent? index = some p) :
    ∃ u segment, t.labels[p]? = some u ∧ Holds d u l.id segment ∧ Called t p u index l segment := by
  cases h.stands index l hl with
  | component hroot _ _ =>
    rw [hp] at hroot
    cases hroot
  | promoted hroot _ _ _ _ =>
    rw [hp] at hroot
    cases hroot
  | owned hq hu hk howns _ hnames =>
    rw [hp] at hq
    cases hq
    exact ⟨_, _, hu, .owned hk howns, hnames.imp_right fun hn => ⟨hk, hn⟩⟩
  | member hq hu hk hmember href hnames =>
    rw [hp] at hq
    cases hq
    exact ⟨_, _, hu, .member hk hmember href, .inl hnames⟩

theorem parent_of_holds (h : t.Standing d o) (hd : d.Rooted) (hs : t.Sound d o)
    (hl : t.labels[index]? = some l) (hu : t.labels[p]? = some u)
    (hholds : Holds d u l.id segment) : t.parent? index = some p := by
  cases hp : t.parent? index with
  | some q =>
    obtain ⟨v, _, hv, hholds', _⟩ := h.held hl hp
    rw [(hs.holder_unique hd hv hu hholds' hholds).1]
  | none =>
    cases h.stands index l hl with
    | component _ hid _ =>
      obtain ⟨⟨name, i⟩, hmem, rfl⟩ := List.mem_map.1 hid
      exact absurd (hd.schemas _ hmem) hholds.not_isRoot
    | promoted _ _ _ _ hfree => exact absurd hholds (hfree u (List.mem_of_getElem? hu) segment)
    | owned hq _ _ _ _ _ =>
      rw [hp] at hq
      cases hq
    | member hq _ _ _ _ _ =>
      rw [hp] at hq
      cases hq

theorem called (h : t.Standing d o) (hd : d.Rooted) (hs : t.Sound d o)
    (hl : t.labels[index]? = some l) (hu : t.labels[p]? = some u)
    (hholds : Holds d u l.id segment) : Called t p u index l segment := by
  obtain ⟨v, found, hv, hholds', hcalled⟩ := h.held hl (h.parent_of_holds hd hs hl hu hholds)
  obtain ⟨_, rfl⟩ := hs.holder_unique hd hv hu hholds' hholds
  rw [hu] at hv
  cases hv
  exact hcalled

theorem origin (h : t.Standing d o) (hl : l ∈ t.labels) :
    (l.id ∈ d.schemas.values ∨ l.kind.needsName = true) ∨
      ∃ u ∈ t.labels, u.kind = .sealed ∧ d.InlineMember u.id l.id := by
  obtain ⟨index, hindex⟩ := List.getElem?_of_mem hl
  cases h.stands index l hindex with
  | component _ hid _ => exact .inl (.inl hid)
  | promoted _ hk _ _ _ => exact .inl (.inr hk)
  | owned _ _ _ _ hk _ => exact .inl (.inr hk)
  | member _ hu huk hmember href _ =>
    exact .inr ⟨_, List.mem_of_getElem? hu, huk, List.mem_of_getElem? hmember, href⟩

end Standing

theorem Standing.inline_child (h : t.Standing d o) (hd : d.Rooted) (hb : Built d o t) {number : Nat}
    (hu : t.labels[p]? = some u) (hk : u.kind = .sealed)
    (hmember : (d.node u.id).oneOf[number]? = some id) (href : (d.node id).reference = none) :
    ∃ index l, t.labels[index]? = some l ∧ l.id = id ∧ t.parent? index = some p ∧
      l.names = u.names.child ("OneOf" ++ toString number) := by
  have hplaced := hb.members u (List.mem_of_getElem? hu) hk id (List.mem_of_getElem? hmember) href
  obtain ⟨l, hl, rfl⟩ := ModelTree.contains_iff.1 hplaced
  obtain ⟨index, hindex⟩ := List.getElem?_of_mem hl
  have hholds : Holds d u l.id ("OneOf" ++ toString number) := .member hk hmember href
  refine ⟨index, l, hindex, rfl, h.parent_of_holds hd hb.sound hindex hu hholds, ?_⟩
  rcases h.called hd hb.sound hindex hu hholds with hnames | ⟨hobject, _⟩
  · exact hnames
  · rw [hk] at hobject
    cases hobject

theorem Built.contains_iff (h : Built d o t) (hstanding : t.Standing d o) (hs : d.Searched o r) :
    t.contains id = true ↔
      (∃ e ∈ r.entries, e.id = id ∧ (id ∈ d.schemas.values ∨ e.kind.needsName = true)) ∨
        ∃ u ∈ t.labels, u.kind = .sealed ∧ d.InlineMember u.id id := by
  constructor
  · intro hc
    obtain ⟨l, hl, rfl⟩ := ModelTree.contains_iff.1 hc
    refine (hstanding.origin hl).imp_left fun horigin => ?_
    obtain ⟨path, hmem⟩ := (hs.entries _ _).2 (h.sound.recorded l hl)
    exact ⟨_, hmem, rfl, horigin⟩
  · rintro (⟨e, he, rfl, hshared | hk⟩ | ⟨u, hu, hk, hmember, href⟩)
    · obtain ⟨⟨name, i⟩, hmem, hi⟩ := List.mem_map.1 hshared
      have hrec := (hs.entries _ _).1 ⟨_, he⟩
      have hplaced := h.components _ hmem e.kind
      rw [hi] at hplaced
      exact hplaced hrec
    · exact h.needed _ _ ((hs.entries _ _).1 ⟨_, he⟩) hk
    · exact h.members u hu hk id hmember href

theorem build_nodes_exact {text : String} {l : Options} {complaints : List String}
    (hload : Document.load text l = .ok (d, complaints)) (hr : d.reachable o = .ok r)
    (ht : build d r = .ok t) :
    (t.nodes.map (·.id)).Nodup ∧
      (∀ id, id ∈ t.nodes.map (·.id) ↔
        (∃ e ∈ r.entries, e.id = id ∧ (id ∈ d.schemas.values ∨ e.kind.needsName = true)) ∨
          ∃ u ∈ t.nodes, u.kind = .sealed ∧ d.InlineMember u.id id) ∧
      ∀ n ∈ t.nodes, (r.entry? n.id).map (·.kind) = some n.kind := by
  have hd := Document.rooted_of_load hload
  have hs := (Document.reachable_meets hd o).of_ok hr
  obtain ⟨hbuilt, hstanding⟩ := built_of_build hd hr ht
  refine ⟨?_, fun id => ?_, fun n hn => ?_⟩
  · rw [← map_id_labels]
    exact hbuilt.sound.ids
  · rw [mem_ids_iff, hbuilt.contains_iff hstanding hs]
    simp only [labels, List.mem_map, exists_exists_and_eq_and]
    rfl
  · exact entry?_of_recorded hs (hbuilt.sound.recorded n.label (List.mem_map.2 ⟨n, hn, rfl⟩))

def nested : String :=
  "\x7bopenapi: '3.1', info: \x7b\x7d, components: \x7bschemas: \x7b" ++
    "A: \x7bproperties: \x7bkItem: \x7banyOf: [\x7b\x7d]\x7d, " ++
    "k: \x7bitems: \x7banyOf: [\x7b\x7d]\x7d\x7d\x7d\x7d, " ++
    "L: \x7bitems: \x7banyOf: [\x7b\x7d]\x7d\x7d, " ++
    "U: \x7boneOf: [\x7b$ref: '#/components/schemas/A'\x7d, \x7banyOf: [\x7b\x7d]\x7d], " ++
    "discriminator: \x7bmapping: \x7ba: A\x7d\x7d\x7d\x7d\x7d\x7d"

theorem nested_resolves : ∃ d r t p, Document.load nested {} = .ok (d, []) ∧
    d.reachable Document.keepAll = .ok r ∧ build d r = .ok t ∧ Unions.resolve d t = .ok p ∧
      t.nodes.length = 7 ∧ ∃ e ∈ r.entries, e.path = ["A", "k", "items"] ∧
        e.kind.needsName = true ∧ e.id ∉ d.schemas.values ∧
          ∀ u ∈ t.nodes, u.kind = .sealed → ¬d.InlineMember u.id e.id := by
  have hcheck : ((Document.load nested {}).toOption.any fun x => x.2.isEmpty &&
      (x.1.reachable Document.keepAll).toOption.any fun r => (build x.1 r).toOption.any fun t =>
        (Unions.resolve x.1 t).toOption.any fun _ => decide (t.nodes.length = 7 ∧
          ∃ e ∈ r.entries, e.path = ["A", "k", "items"] ∧ e.kind.needsName = true ∧
            e.id ∉ x.1.schemas.values ∧
              ∀ u ∈ t.nodes, u.kind = .sealed → ¬x.1.InlineMember u.id e.id)) = true := by
    decide +kernel
  obtain ⟨d, hload, hreached⟩ := quiet_of_any hcheck
  obtain ⟨r, hr, hbuilt⟩ := ok_of_any hreached
  obtain ⟨t, ht, hresolved⟩ := ok_of_any hbuilt
  obtain ⟨p, hp, hfacts⟩ := ok_of_any hresolved
  exact ⟨d, r, t, p, hload, hr, ht,
    hp, of_decide_eq_true hfacts⟩

theorem build_nodes_exact_nested : ∃ d r t, Document.load nested {} = .ok (d, []) ∧
    d.reachable Document.keepAll = .ok r ∧ build d r = .ok t ∧ t.nodes.length = 7 ∧
      (t.nodes.map (·.id)).Nodup ∧
        (∃ e ∈ r.entries, e.path = ["A", "k", "items"] ∧ e.id ∈ t.nodes.map (·.id)) ∧
          ∀ n ∈ t.nodes, (r.entry? n.id).map (·.kind) = some n.kind := by
  obtain ⟨d, r, t, _, hload, hr, ht, _, hlength, e, he, hpath, hk, _, _⟩ := nested_resolves
  obtain ⟨hnodup, hiff, hkinds⟩ := build_nodes_exact hload hr ht
  have hid : e.id ∈ t.nodes.map (·.id) := (hiff e.id).2 (.inl ⟨e, he, rfl, .inr hk⟩)
  exact ⟨d, r, t, hload, hr, ht, hlength, hnodup, ⟨e, he, hpath, hid⟩, hkinds⟩

theorem IsForest.mem_children_iff (h : t.IsForest) {n : ModelNode} (hn : t.node? p = some n)
    {child : Nat} : child ∈ n.children ↔ t.parent? child = some p := by
  rw [← h.mem_children p child, childrenAt, hn]
  rfl

structure FollowsOwner (t : ModelTree) (d : Document) (index id : Nat) : Prop where
  child : ∀ p owner, t.node? p = some owner → owner.kind = .object →
    (index ∈ owner.children ↔ ∃ segment, t.OwnedBy d p id segment)
  unique : ∀ p q segment segment', t.OwnedBy d p id segment → t.OwnedBy d q id segment' → p = q
  root : index ∈ t.roots ↔ ∀ p segment, ¬t.OwnedBy d p id segment

/-- A child's name is its parent's with one segment. Below an object that is the segment under which
it is owned, with a number only where an earlier child has that name. -/
def NamedBelow (t : ModelTree) (d : Document) (owner : ModelNode) (index : Nat) : Prop :=
  ∃ n segment, t.node? index = some n ∧ n.names = owner.names.child segment ∧
    (owner.kind = .object → ∃ wanted, d.arena.Owns owner.id n.id wanted ∧
      (segment = wanted ∨ ∃ number, 2 ≤ number ∧ segment = wanted ++ toString number ∧
        ∃ sibling ∈ owner.children, sibling < index ∧
          t.namesAt sibling = owner.names.child wanted))

namespace Standing

theorem parent_of_ownedBy (h : t.Standing d o) (hd : d.Rooted) (hs : t.Sound d o)
    (hl : t.labels[index]? = some l) (howned : t.OwnedBy d p l.id segment) :
    t.parent? index = some p := by
  obtain ⟨owner, howner, hk, howns⟩ := howned
  exact h.parent_of_holds hd hs hl (getElem?_labels_of_node? howner) (.owned hk howns)

theorem ownedBy_of_parent (h : t.Standing d o) (hl : t.labels[index]? = some l)
    {owner : ModelNode} (howner : t.node? p = some owner) (hk : owner.kind = .object)
    (hp : t.parent? index = some p) : ∃ segment, t.OwnedBy d p l.id segment := by
  obtain ⟨u, segment, hu, hholds, _⟩ := h.held hl hp
  rw [getElem?_labels_of_node? howner] at hu
  cases hu
  cases hholds with
  | owned _ howns => exact ⟨segment, owner, howner, hk, howns⟩
  | member hsealed _ _ =>
    have hkind : owner.kind = .sealed := hsealed
    rw [hk] at hkind
    cases hkind

theorem root_of_unowned (h : t.Standing d o) (hl : t.labels[index]? = some l)
    (hshared : l.id ∉ d.schemas.values)
    (hmember : ∀ u ∈ t.labels, u.kind = .sealed → ¬d.InlineMember u.id l.id)
    (hfree : ∀ p segment, ¬t.OwnedBy d p l.id segment) : t.parent? index = none := by
  cases h.stands index l hl with
  | component _ hid _ => exact absurd hid hshared
  | promoted hroot _ _ _ _ => exact hroot
  | @owned p u segment _ hu huk howns _ _ =>
    rw [getElem?_labels, Option.map_eq_some_iff] at hu
    obtain ⟨owner, howner, rfl⟩ := hu
    exact absurd ⟨owner, howner, huk, howns⟩ (hfree p segment)
  | member _ hu huk hin href _ =>
    exact absurd ⟨List.mem_of_getElem? hin, href⟩ (hmember _ (List.mem_of_getElem? hu) huk)

theorem followsOwner (h : t.Standing d o) (hd : d.Rooted) (hs : t.Sound d o)
    (hl : t.labels[index]? = some l) (hshared : l.id ∉ d.schemas.values)
    (hmember : ∀ u ∈ t.labels, u.kind = .sealed → ¬d.InlineMember u.id l.id) :
    t.FollowsOwner d index l.id where
  child p owner howner hk := by
    rw [hs.forest.mem_children_iff howner]
    constructor
    · exact h.ownedBy_of_parent hl howner hk
    · rintro ⟨segment, howned⟩
      exact h.parent_of_ownedBy hd hs hl howned
  unique p q segment segment' hp hq := by
    have hparent := h.parent_of_ownedBy hd hs hl hp
    rw [h.parent_of_ownedBy hd hs hl hq] at hparent
    exact (Option.some.inj hparent).symm
  root := by
    have hlt := (List.getElem?_eq_some_iff.1 hl).1
    rw [length_labels] at hlt
    rw [hs.forest.mem_roots]
    constructor
    · rintro ⟨_, hroot⟩ p segment howned
      rw [h.parent_of_ownedBy hd hs hl howned] at hroot
      cases hroot
    · intro hfree
      exact ⟨hlt, h.root_of_unowned hl hshared hmember hfree⟩

theorem root_named (h : t.Standing d o) (hs : t.Sound d o) (hroot : index ∈ t.roots) :
    ∃ name, t.namesAt index = .root name := by
  obtain ⟨hlt, hnone⟩ := (hs.forest.mem_roots index).1 hroot
  obtain ⟨n, hn⟩ := exists_node hlt
  rcases (h.stands index _ (getElem?_labels_of_node? hn)).named with
    ⟨_, name, hname⟩ | ⟨p, _, _, hp, _⟩
  · exact ⟨name, (namesAt_of_node? hn).trans hname⟩
  · rw [hnone] at hp
    cases hp

theorem namedBelow (h : t.Standing d o) (hs : t.Sound d o) {owner : ModelNode}
    (howner : t.node? p = some owner) (hchild : index ∈ owner.children) :
    t.NamedBelow d owner index := by
  have hp := (hs.forest.mem_children_iff howner).1 hchild
  obtain ⟨n, hn⟩ := exists_node (hs.forest.bounded index p hp).1
  obtain ⟨u, wanted, hu, hholds, hcalled⟩ := h.held (getElem?_labels_of_node? hn) hp
  rw [getElem?_labels_of_node? howner] at hu
  cases hu
  have howns : owner.kind = .object → d.arena.Owns owner.id n.id wanted := by
    intro hk
    cases hholds with
    | owned _ howns => exact howns
    | member hsealed _ _ =>
      have hkind : owner.kind = .sealed := hsealed
      rw [hk] at hkind
      cases hkind
  rcases hcalled with hnames | ⟨_, sibling, m, number, hlt, hparent, hm, hwanted, htwo, hnames⟩
  · exact ⟨n, wanted, hn, hnames, fun hk => ⟨wanted, howns hk, .inl rfl⟩⟩
  · rw [TypeNames.numbered_child] at hnames
    have hsibling := (hs.forest.mem_children_iff howner).2 hparent
    refine ⟨n, wanted ++ toString number, hn, hnames, fun hk => ⟨wanted, howns hk, .inr ?_⟩⟩
    exact ⟨number, htwo, rfl, sibling, hsibling, hlt, (namesAt_of_label hm).trans hwanted⟩

end Standing

theorem build_places_exact {text : String} {l : Options} {complaints : List String}
    (hload : Document.load text l = .ok (d, complaints)) (hr : d.reachable o = .ok r)
    (ht : build d r = .ok t) :
    (∀ e ∈ r.entries, e.kind.needsName = true → e.id ∉ d.schemas.values →
      (∀ u ∈ t.nodes, u.kind = .sealed → ¬d.InlineMember u.id e.id) →
        ∃ index n, t.node? index = some n ∧ n.id = e.id ∧ t.FollowsOwner d index e.id) ∧
      (∀ index ∈ t.roots, ∃ name, t.namesAt index = .root name) ∧
      ∀ p owner, t.node? p = some owner → ∀ index ∈ owner.children, t.NamedBelow d owner index := by
  have hd := Document.rooted_of_load hload
  have hs := (Document.reachable_meets hd o).of_ok hr
  obtain ⟨hbuilt, hstanding⟩ := built_of_build hd hr ht
  have hsound := hbuilt.sound
  refine ⟨fun e he hk hshared hmember => ?_, fun index => hstanding.root_named hsound,
    fun p owner howner index => hstanding.namedBelow hsound howner⟩
  have hrec := (hs.entries e.id e.kind).1 ⟨e.path, he⟩
  obtain ⟨found, hfound, hid⟩ := ModelTree.contains_iff.1 (hbuilt.needed _ _ hrec hk)
  obtain ⟨n, hn, rfl⟩ := List.mem_map.1 hfound
  obtain ⟨index, hindex⟩ := List.getElem?_of_mem hn
  rw [← hid] at hshared hmember ⊢
  refine ⟨index, n, hindex, rfl, hstanding.followsOwner hd hsound
    (getElem?_labels_of_node? hindex) hshared fun u hu => ?_⟩
  obtain ⟨m, hm, rfl⟩ := List.mem_map.1 hu
  exact hmember m hm

theorem build_places_exact_nested : ∃ d r t, Document.load nested {} = .ok (d, []) ∧
    d.reachable Document.keepAll = .ok r ∧ build d r = .ok t ∧
      (∃ e ∈ r.entries, e.path = ["A", "k", "items"] ∧ e.kind.needsName = true ∧
        e.id ∉ d.schemas.values ∧ (∀ u ∈ t.nodes, u.kind = .sealed → ¬d.InlineMember u.id e.id) ∧
          ∃ index n, t.node? index = some n ∧ n.id = e.id ∧ t.FollowsOwner d index e.id) ∧
        ∀ index ∈ t.roots, ∃ name, t.namesAt index = .root name := by
  obtain ⟨d, r, t, _, hload, hr, ht, _, _, e, he, hpath, hk, hshared, hmember⟩ := nested_resolves
  obtain ⟨hplaces, hroots, _⟩ := build_places_exact hload hr ht
  exact ⟨d, r, t, hload, hr, ht,
    ⟨e, he, hpath, hk, hshared, hmember, hplaces e he hk hshared hmember⟩, hroots⟩

end ModelTree

end ApiModel
