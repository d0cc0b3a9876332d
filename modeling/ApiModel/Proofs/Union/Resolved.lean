import ApiModel.Proofs.ModelTree.Build
import ApiModel.Conversion

namespace ApiModel

namespace ModelTree

variable {d : Document} {o : Options} {t t' : ModelTree} {names : TypeNames} {union : Nat}
  {l : Label}

def Named (t : ModelTree) (names : TypeNames) : Prop := ∃ l ∈ t.labels, l.names = names

theorem named_of_names? {id : Nat} (h : t.names? id = some names) : t.Named names := by
  obtain ⟨l, hl, _, hnames⟩ := names?_some h
  exact ⟨l, hl, hnames⟩

theorem Built.nest (h : Built d o t) (hr : Run d o t t') (hlabels : t'.labels = t.labels) :
    Built d o t' where
  run := h.run.trans hr
  sound := h.sound.run hr
  components e he kind hrec := hr.contains (h.components e he kind hrec)
  needed id kind hrec hk := hr.contains (h.needed id kind hrec hk)
  members l hl := (h.members l (hlabels ▸ hl)).run hr

theorem namedReference_meets (hd : d.Rooted) (hf : d.Followable o) (h : Built d o t)
    {reference : String} (location : String)
    (hstart : ∀ target, d.resolve? reference = some target → d.Reached o target) :
    Meets (t.namedReference d reference location) t.Named ConversionError.Expected := by
  unfold namedReference
  refine (Document.links_meets reference location hstart
    fun id text next hid href hnext => .step hid (.reference href hnext)).bind fun links _ hends => ?_
  obtain ⟨last, hlast, href⟩ := hends.last
  have hmem := List.mem_of_getLast? hlast
  obtain ⟨hreached, hvalue⟩ := hends.all last hmem
  obtain ⟨⟨name, id⟩, hentry, rfl⟩ := List.mem_map.1 hvalue
  obtain ⟨kind, hkind⟩ := (Document.opens_of_no_reference href).1 (hf.opens _ hreached)
  have hroot := (hd.schemas _ hentry).not_isMember
  have hcontains := h.components _ hentry kind (.inl ⟨hreached, href, hroot, hkind⟩)
  obtain ⟨found, hfound⟩ := names?_isSome hcontains
  split
  · next names hnames =>
    obtain ⟨link, _, hlink⟩ := List.exists_of_findSome?_eq_some hnames
    exact named_of_names? hlink
  · next hnone =>
    rw [List.findSome?_eq_none_iff.1 hnone last hmem] at hfound
    cases hfound

theorem nestVariant_meets (hnamed : t.Named names) (hl : t.labels[union]? = some l)
    (hk : l.kind = .sealed) :
    Meets (t.nestVariant names union) (fun t' => Run d o t t' ∧ t'.labels = t.labels)
      fun _ => False := by
  obtain ⟨m, hm, rfl⟩ := hnamed
  obtain ⟨index, hindex⟩ := find?_isSome hm
  obtain ⟨n, hn, _⟩ := find?_some hindex
  unfold nestVariant
  rw [hindex]
  simp only
  split
  · exact ⟨.refl, rfl⟩
  · next hfree =>
    simp only [Bool.or_eq_true, not_or, Bool.not_eq_true] at hfree
    have hmove : (t.note (.nested m.names (t.namesAt union))).moveUnder index union =
        .ok ((t.note (.nested m.names (t.namesAt union))).hang index union) := by
      unfold moveUnder
      rw [parent?_note, hfree.1, isAncestor_note, hfree.2]
      rfl
    rw [hmove]
    refine ⟨.tail (.single (.note t _)) (.nest (lt_of_node? hn) hl hk hmove), ?_⟩
    rw [labels_hang]
    rfl

end ModelTree

structure Unions.Within (u : Unions) (t : ModelTree) : Prop where
  serialNames : ∀ e ∈ u.serialNames, t.Named e.1
  serialNames_nodup : u.serialNames.keys.Nodup
  interfaces : ∀ e ∈ u.interfaces, t.Named e.1 ∧ ∀ names ∈ e.2, t.Named names
  interfaces_nodup : u.interfaces.keys.Nodup
  variants : ∀ e ∈ u.shapes, ∀ v ∈ e.2.variants, t.Named v.names

namespace Unions.Within

variable {u : Unions} {t : ModelTree} {names : TypeNames}

theorem empty (t : ModelTree) : ({} : Unions).Within t := by
  constructor <;> simp [OrderedMap.keys]

theorem insertSerialName (h : u.Within t) (hn : t.Named names) (tag : String) :
    { u with serialNames := u.serialNames.insertNew names tag }.Within t where
  serialNames e he := by
    rcases OrderedMap.mem_insertNew he with he | rfl
    · exact h.serialNames e he
    · exact hn
  serialNames_nodup := OrderedMap.nodup_keys_insertNew h.serialNames_nodup names tag
  interfaces := h.interfaces
  interfaces_nodup := h.interfaces_nodup
  variants := h.variants

theorem addInterface (h : u.Within t) (hn : t.Named names) {union : TypeNames}
    (hu : t.Named union) :
    { u with interfaces := u.interfaces.alter names [] (· ++ [union]) }.Within t where
  serialNames := h.serialNames
  serialNames_nodup := h.serialNames_nodup
  interfaces e he := by
    rcases OrderedMap.mem_alter_push he with he | ⟨hkey, hall⟩
    · exact h.interfaces e he
    · refine ⟨hkey ▸ hn, fun m hm => ?_⟩
      rcases hall m hm with rfl | ⟨old, hold, hm⟩
      · exact hu
      · exact (h.interfaces _ hold).2 m hm
  interfaces_nodup := OrderedMap.nodup_keys_insert h.interfaces_nodup _ _
  variants := h.variants

theorem insertShape (h : u.Within t) (index : Nat) {shape : UnionShape}
    (hs : ∀ v ∈ shape.variants, t.Named v.names) :
    { u with shapes := u.shapes.insert index shape }.Within t where
  serialNames := h.serialNames
  serialNames_nodup := h.serialNames_nodup
  interfaces := h.interfaces
  interfaces_nodup := h.interfaces_nodup
  variants e he := by
    rcases OrderedMap.mem_insert he with he | rfl
    · exact h.variants e he
    · exact hs

theorem of_labels {t' : ModelTree} (h : u.Within t) (hlabels : t'.labels = t.labels) :
    u.Within t' := by
  have hnamed : ∀ {names}, t.Named names → t'.Named names := by
    intro names hn
    rw [ModelTree.Named, hlabels]
    exact hn
  exact ⟨fun e he => hnamed (h.serialNames e he), h.serialNames_nodup,
    fun e he => ⟨hnamed (h.interfaces e he).1, fun m hm => hnamed ((h.interfaces e he).2 m hm)⟩,
    h.interfaces_nodup, fun e he v hv => hnamed (h.variants e he v hv)⟩

end Unions.Within

structure Resolving (d : Document) (o : Options) (t : ModelTree) (p : Placed) : Prop where
  built : ModelTree.Built d o p.tree
  run : ModelTree.Run d o t p.tree
  labels : p.tree.labels = t.labels
  within : p.unions.Within t

namespace Unions

variable {d : Document} {o : Options} {t : ModelTree} {p : Placed} {union member : Nat} {l : Label}
  {mapping : OrderedMap String String}

theorem mem_placedIn {index id : Nat} : (index, id) ∈ placedIn t ↔
    ∃ n, t.node? index = some n ∧ n.kind = .sealed ∧ n.id = id := by
  simp only [placedIn, List.mem_filterMap, Prod.exists, Option.ite_none_right_eq_some,
    Option.some.injEq, Prod.mk.injEq]
  constructor
  · rintro ⟨n, i, hmem, hk, rfl, hid⟩
    exact ⟨n, List.mk_mem_zipIdx_iff_getElem?.1 hmem, hk, hid⟩
  · rintro ⟨n, hn, hk, hid⟩
    exact ⟨n, index, List.mk_mem_zipIdx_iff_getElem?.2 hn, hk, rfl, hid⟩

theorem variant_meets (hd : d.Rooted) (hf : d.Followable o) (h : Resolving d o t p)
    (hl : t.labels[union]? = some l) (hk : l.kind = .sealed)
    (hm : member ∈ (d.node l.id).oneOf) :
    Meets (variant d union mapping p member)
      (fun x => t.Named x.1.names ∧ Resolving d o t x.2 ∧ x.2.unions.shapes = p.unions.shapes)
      ConversionError.Expected := by
  have hmem : l ∈ p.tree.labels := h.labels ▸ List.mem_of_getElem? hl
  have hrec := h.built.sound.recorded l hmem
  have hreached : d.Reached o member :=
    .step hrec.reached (.part (hrec.reference_none (by rw [hk]; simp))
      (SchemaNode.mem_subschemas_of_oneOf hm))
  unfold variant
  simp only
  split
  · next reference href =>
    refine (ModelTree.namedReference_meets hd hf h.built (d.node member).location
      fun target ht => .step hreached (.reference href ht)).bind fun names _ hnamed => ?_
    split
    · trivial
    · next declared hdeclared =>
      have hnamed' : t.Named names := by
        rw [ModelTree.Named, ← h.labels]
        exact hnamed
      refine ((ModelTree.nestVariant_meets (d := d) (o := o) hnamed (h.labels ▸ hl) hk).mono
        (fun _ hx => hx) fun _ he => he.elim).bind fun t' _ ht => ?_
      obtain ⟨hrun, hlabels⟩ := ht
      refine ⟨hnamed', ⟨h.built.nest hrun hlabels, h.run.trans hrun, hlabels.trans h.labels, ?_⟩,
        rfl⟩
      exact h.within.insertSerialName hnamed' _
  · next href =>
    obtain ⟨names, hnames⟩ :=
      ModelTree.names?_isSome (h.built.members l hmem hk member hm href)
    rw [hnames]
    refine ⟨?_, h, rfl⟩
    rw [ModelTree.Named, ← h.labels]
    exact ModelTree.named_of_names? hnames

theorem addMember_meets (hd : d.Rooted) (hf : d.Followable o) {variants : List SealedVariant}
    (h : Resolving d o t p) (hv : ∀ v ∈ variants, t.Named v.names)
    (hl : t.labels[union]? = some l) (hk : l.kind = .sealed)
    (hm : member ∈ (d.node l.id).oneOf) :
    Meets (addMember d union mapping (variants, p) member)
      (fun x => (∀ v ∈ x.1, t.Named v.names) ∧ Resolving d o t x.2 ∧
        x.2.unions.shapes = p.unions.shapes) ConversionError.Expected := by
  unfold addMember
  refine (variant_meets hd hf h hl hk hm).bind fun x _ hx => ?_
  obtain ⟨v, p'⟩ := x
  obtain ⟨hnamed, h', hshapes⟩ := hx
  simp only at hnamed h' hshapes ⊢
  split
  · trivial
  · refine ⟨?_, ⟨h'.built, h'.run, h'.labels, ?_⟩, hshapes⟩
    · exact List.forall_mem_append.2 ⟨hv, List.forall_mem_singleton.2 hnamed⟩
    · refine h'.within.addInterface hnamed ⟨l, List.mem_of_getElem? hl, ?_⟩
      rw [← h.labels, ModelTree.getElem?_labels, Option.map_eq_some_iff] at hl
      obtain ⟨n, hn, rfl⟩ := hl
      rw [ModelTree.namesAt_of_node? hn]
      rfl

theorem resolveOne_meets (hd : d.Rooted) (hf : d.Followable o) (h : Resolving d o t p)
    (hl : t.labels[union]? = some l) (hk : l.kind = .sealed) :
    Meets (resolveOne d p (union, l.id))
      (fun p' => Resolving d o t p' ∧
        ∃ shape, p'.unions.shapes = p.unions.shapes.insert union shape)
      ConversionError.Expected := by
  unfold resolveOne
  refine (Meets.foldlM (fun _ acc => (∀ v ∈ acc.1, t.Named v.names) ∧ Resolving d o t acc.2 ∧
    acc.2.unions.shapes = p.unions.shapes) ⟨by simp, h, rfl⟩ ?_).bind fun acc _ hacc => ?_
  · rintro done member rest ⟨variants, p'⟩ hsplit ⟨hv, h', hshapes⟩
    have hm : member ∈ (d.node l.id).oneOf := by simp [hsplit]
    exact (addMember_meets hd hf h' hv hl hk hm).weaken fun x hx =>
      ⟨hx.1, hx.2.1, hx.2.2.trans hshapes⟩
  · obtain ⟨variants, p'⟩ := acc
    obtain ⟨hv, h', hshapes⟩ := hacc
    refine ⟨⟨h'.built, h'.run, h'.labels, h'.within.insertShape union hv⟩,
      ⟨discriminatorOf (d.node l.id), variants⟩, ?_⟩
    exact congrArg (OrderedMap.insert · union _) hshapes

end Unions

structure Resolved (d : Document) (o : Options) (p : Placed) : Prop where
  built : ModelTree.Built d o p.tree
  within : p.unions.Within p.tree
  shapes : ∀ index l, p.tree.labels[index]? = some l → l.kind = .sealed →
    ∃ shape, p.unions.shapes.get? index = some shape

theorem Unions.resolve_meets {d : Document} {o : Options} {t : ModelTree} (hd : d.Rooted)
    (hf : d.Followable o) (ht : ModelTree.Built d o t) :
    Meets (resolve d t) (fun p => Resolved d o p ∧ ModelTree.Run d o t p.tree)
      ConversionError.Expected := by
  have hfirst : Resolving d o t ⟨t, {}⟩ := ⟨ht, .refl, rfl, .empty t⟩
  unfold resolve
  refine (Meets.foldlM (fun done p => Resolving d o t p ∧
    ∀ e ∈ done, ∃ shape, p.unions.shapes.get? e.1 = some shape) ⟨hfirst, by simp⟩ ?_).weaken
      fun p hp => ?_
  · rintro done ⟨index, id⟩ rest p hsplit ⟨h, hshapes⟩
    have hplaced : (index, id) ∈ placedIn t := by simp [hsplit]
    obtain ⟨n, hn, hk, rfl⟩ := mem_placedIn.1 hplaced
    have hl := ModelTree.getElem?_labels_of_node? hn
    refine (resolveOne_meets hd hf h hl hk).weaken fun p' hp' => ?_
    obtain ⟨h', shape, hinsert⟩ := hp'
    refine ⟨h', fun e he => ?_⟩
    rw [hinsert]
    by_cases hei : e.1 = index
    · exact ⟨shape, by rw [hei, OrderedMap.get?_insert_self]⟩
    · rw [OrderedMap.get?_insert_of_ne _ _ hei]
      rcases List.mem_append.1 he with hold | hnew
      · exact hshapes e hold
      · exact absurd (congrArg Prod.fst (List.mem_singleton.1 hnew)) hei
  · obtain ⟨h, hshapes⟩ := hp
    refine ⟨⟨h.built, h.within.of_labels h.labels, fun index l hl hk => ?_⟩, h.run⟩
    rw [h.labels, ModelTree.getElem?_labels, Option.map_eq_some_iff] at hl
    obtain ⟨n, hn, rfl⟩ := hl
    exact hshapes (index, n.id) (mem_placedIn.2 ⟨n, hn, hk, rfl⟩)

theorem Document.placed_meets {d : Document} (hd : d.Rooted) (o : Options) :
    Meets (d.placed o) (fun p => d.Followable o ∧ Resolved d o p) ConversionError.Expected := by
  unfold placed
  refine ((reachable_meets hd o).mono (fun _ h => h) fun _ he => he.1).bind fun r _ hr => ?_
  refine ((ModelTree.build_meets hr).mono (fun _ h => h) fun _ he => he.elim).bind fun t _ ht => ?_
  exact (Unions.resolve_meets hd hr.followable ht).weaken fun p h => ⟨hr.followable, h.1⟩

end ApiModel
