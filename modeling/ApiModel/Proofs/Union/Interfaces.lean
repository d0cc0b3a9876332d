import ApiModel.Proofs.Listing
import ApiModel.Proofs.Union.Exact

namespace ApiModel

namespace Unions

def typesOf (shapes : OrderedMap Nat UnionShape) (index : Nat) : List TypeNames :=
  ((shapes.get? index).elim [] (·.variants)).map (·.names)

def implementedIn (t : ModelTree) (shapes : OrderedMap Nat UnionShape)
    (unions : List (Nat × Nat)) : List (TypeNames × TypeNames) :=
  unions.flatMap fun e => (typesOf shapes e.1).map fun v => (v, t.namesAt e.1)

def Coincide (d : Document) (t : ModelTree) (u : ModelNode) (names : TypeNames) : Prop :=
  ∃ i j first second v w, i < j ∧ (d.node u.id).oneOf[i]? = some first ∧
    (d.node u.id).oneOf[j]? = some second ∧ Means d t u i first v ∧ Means d t u j second w ∧
      v.names = names ∧ w.names = names

/-- What stands in the table of interfaces: its keys are the types of variants, and a union stands
under a type once for each variant of that type, so only once if no two members coincide. -/
structure InterfacesExact (d : Document) (t : ModelTree) (p : Placed) : Prop where
  nodup : p.unions.interfaces.keys.Nodup
  keys : ∀ v, v ∈ p.unions.interfaces.keys ↔
    ∃ e ∈ placedIn t, v ∈ typesOf p.unions.shapes e.1
  listed : ∀ v, (p.unions.interfaces.get? v).getD [] = (placedIn t).flatMap fun e =>
    List.replicate ((typesOf p.unions.shapes e.1).count v) (t.namesAt e.1)
  count : ∀ index u, t.node? index = some u → u.kind = .sealed → ∀ v,
    ((p.unions.interfaces.get? v).getD []).count u.names =
      (typesOf p.unions.shapes index).count v
  once : ∀ index u, t.node? index = some u → u.kind = .sealed →
    ((∀ v ∈ typesOf p.unions.shapes index,
      ((p.unions.interfaces.get? v).getD []).count u.names = 1) ↔ ∀ v, ¬Coincide d t u v)
  ordered : (∀ u ∈ t.nodes, u.kind = .sealed → ∀ v, ¬Coincide d t u v) → ∀ v,
    (p.unions.interfaces.get? v).getD [] =
      ((placedIn t).filter fun e => decide (v ∈ typesOf p.unions.shapes e.1)).map
        fun e => t.namesAt e.1

variable {d : Document} {o : Options} {t : ModelTree} {p : Placed} {u : ModelNode}
  {union member : Nat} {variants : List SealedVariant} {mapping : OrderedMap String String}

theorem typesOf_insert_self (shapes : OrderedMap Nat UnionShape) (index : Nat)
    (shape : UnionShape) :
    typesOf (shapes.insert index shape) index = shape.variants.map (·.names) := by
  rw [typesOf, OrderedMap.get?_insert_self, Option.elim_some]

theorem implementedIn_insert {shapes : OrderedMap Nat UnionShape} {unions : List (Nat × Nat)}
    {index : Nat} (shape : UnionShape) (hnew : index ∉ unions.map (·.1)) :
    implementedIn t (shapes.insert index shape) unions = implementedIn t shapes unions := by
  refine List.flatMap_congr fun e he => ?_
  have hne : e.1 ≠ index := fun heq => hnew (heq ▸ List.mem_map.2 ⟨e, he, rfl⟩)
  rw [typesOf, typesOf, OrderedMap.get?_insert_of_ne _ _ hne]

theorem variant_interfaces : Meets (variant d union mapping p member)
    (fun x => x.2.unions.interfaces = p.unions.interfaces ∧ x.2.unions.shapes = p.unions.shapes)
    fun _ => True := by
  unfold variant
  simp only
  split
  · next reference _ =>
    have hnames : Meets (p.tree.namedReference d reference (d.node member).location)
        (fun _ => True) fun _ => True := namedReference_first.mono (fun _ _ => trivial) fun _ _ =>
      trivial
    refine hnames.bind fun names _ _ => ?_
    split
    · trivial
    · exact ((nestVariant_tagless names union).mono (fun _ h => h) fun _ _ => trivial).bind
        fun _ _ _ => ⟨rfl, rfl⟩
  · split
    · exact ⟨rfl, rfl⟩
    · trivial

theorem addMember_interfaces : Meets (addMember d union mapping (variants, p) member)
    (fun x => ∃ v, x.1 = variants ++ [v] ∧ x.2.unions.interfaces =
      p.unions.interfaces.pushAll [(v.names, p.tree.namesAt union)]) fun _ => True := by
  unfold addMember
  refine variant_interfaces.bind fun ⟨v, p'⟩ _ ⟨hinterfaces, _⟩ => ?_
  simp only at hinterfaces ⊢
  split
  · trivial
  · exact ⟨v, rfl, by rw [hinterfaces]; rfl⟩

theorem resolveOne_interfaces (hd : d.Rooted) (hf : d.Followable o) (h : Resolving d o t p)
    (hu : t.node? union = some u) (hk : u.kind = .sealed) :
    Meets (resolveOne d p (union, u.id)) (fun p' => ∃ shape,
      p'.unions.shapes = p.unions.shapes.insert union shape ∧ p'.unions.interfaces =
        p.unions.interfaces.pushAll (shape.variants.map fun v => (v.names, u.names)))
      fun _ => True := by
  have hl := ModelTree.getElem?_labels_of_node? hu
  unfold resolveOne
  refine (Meets.foldlM (fun _ acc => (acc.2.unions.interfaces =
    p.unions.interfaces.pushAll (acc.1.map fun v => (v.names, u.names))) ∧
      (∀ v ∈ acc.1, t.Named v.names) ∧ Resolving d o t acc.2 ∧
        acc.2.unions.shapes = p.unions.shapes) ⟨rfl, by simp, h, rfl⟩ ?_).bind ?_
  · rintro done member rest ⟨variants, p'⟩ hsplit ⟨hinterfaces, hnamed, h', hshapes⟩
    have hm : member ∈ (d.node u.id).oneOf := by simp [hsplit]
    have hnames : p'.tree.namesAt union = u.names :=
      ModelTree.namesAt_of_label (h'.labels.symm ▸ hl)
    refine (addMember_interfaces.and (addMember_meets hd hf h' hnamed hl hk hm)).weaken ?_
    rintro ⟨_, p''⟩ ⟨⟨v, rfl, hpushed⟩, hnamed', h'', hshapes'⟩
    refine ⟨?_, hnamed', h'', hshapes'.trans hshapes⟩
    rw [hpushed, hinterfaces, hnames, List.map_append, OrderedMap.pushAll_append]
    rfl
  · rintro ⟨variants, p'⟩ _ ⟨hinterfaces, _, _, hshapes⟩
    refine ⟨⟨discriminatorOf (d.node u.id), variants⟩, ?_, hinterfaces⟩
    exact congrArg (OrderedMap.insert · union _) hshapes

theorem resolve_implemented (hd : d.Rooted) (hf : d.Followable o) (hb : ModelTree.Built d o t) :
    Meets (resolve d t) (fun p => p.unions.interfaces =
      OrderedMap.pushAll [] (implementedIn t p.unions.shapes (placedIn t))) fun _ => True := by
  have hfirst : Resolving d o t ⟨t, {}⟩ := ⟨hb, .refl, rfl, .empty t⟩
  unfold resolve
  refine (Meets.foldlM (fun done p => p.unions.interfaces =
    OrderedMap.pushAll [] (implementedIn t p.unions.shapes done) ∧ Resolving d o t p)
      ⟨rfl, hfirst⟩ ?_).weaken fun _ hp => hp.1
  rintro done ⟨index, id⟩ rest p hsplit ⟨hinterfaces, h⟩
  have hplaced : (index, id) ∈ placedIn t := by simp [hsplit]
  obtain ⟨u, hu, hk, rfl⟩ := mem_placedIn.1 hplaced
  have hnew : index ∉ done.map (·.1) := by
    have hnodup := placedIn_nodup t
    rw [hsplit, List.map_append, List.map_cons, List.nodup_append] at hnodup
    intro hmem
    exact hnodup.2.2 index hmem index List.mem_cons_self rfl
  have hmeets := (resolveOne_meets hd hf h (ModelTree.getElem?_labels_of_node? hu) hk).mono
    (fun _ hp' => hp') fun _ _ => trivial
  refine ((resolveOne_interfaces hd hf h hu hk).and hmeets).weaken ?_
  rintro p' ⟨⟨shape, hshapes, hpushed⟩, h', _⟩
  refine ⟨?_, h'⟩
  have hlast : implementedIn t (p.unions.shapes.insert index shape) [(index, u.id)] =
      shape.variants.map fun v => (v.names, u.names) := by
    rw [implementedIn, List.flatMap_singleton, typesOf_insert_self, List.map_map,
      ModelTree.namesAt_of_node? hu]
    rfl
  rw [hpushed, hshapes, implementedIn, List.flatMap_append, ← implementedIn, ← implementedIn,
    implementedIn_insert shape hnew, hlast, OrderedMap.pushAll_append, hinterfaces]

theorem Exact.nodup_names_iff (h : Exact d t u (d.node u.id).oneOf variants) :
    (variants.map (·.names)).Nodup ↔ ∀ names, ¬Coincide d t u names := by
  rw [List.nodup_iff_getElem?_ne_getElem?]
  constructor
  · rintro hdistinct names ⟨i, j, first, second, v, w, hlt, hfirst, hsecond, hv, hw, rfl, hsame⟩
    have hj := (List.getElem?_eq_some_iff.1 hsecond).1
    rw [← h.length] at hj
    have hvi : variants[i]? = some variants[i] := List.getElem?_eq_getElem (Nat.lt_trans hlt hj)
    have hvj : variants[j]? = some variants[j] := List.getElem?_eq_getElem hj
    refine hdistinct i j hlt (by simpa using hj) ?_
    rw [List.getElem?_map, List.getElem?_map, hvi, hvj, (h.means i first _ hfirst hvi).unique hv,
      (h.means j second _ hsecond hvj).unique hw, Option.map_some, Option.map_some, hsame]
  · intro hapart i j hlt hj hsame
    rw [List.length_map] at hj
    have hi := Nat.lt_trans hlt hj
    have hlength := h.length
    have hfirst : (d.node u.id).oneOf[i]? = some (d.node u.id).oneOf[i] :=
      List.getElem?_eq_getElem (hlength ▸ hi)
    have hsecond : (d.node u.id).oneOf[j]? = some (d.node u.id).oneOf[j] :=
      List.getElem?_eq_getElem (hlength ▸ hj)
    have hvi : variants[i]? = some variants[i] := List.getElem?_eq_getElem hi
    have hvj : variants[j]? = some variants[j] := List.getElem?_eq_getElem hj
    rw [List.getElem?_map, List.getElem?_map, hvi, hvj, Option.map_some, Option.map_some,
      Option.some.injEq] at hsame
    exact hapart variants[i].names ⟨i, j, _, _, _, _, hlt, hfirst, hsecond,
      h.means i _ _ hfirst hvi, h.means j _ _ hsecond hvj, rfl, hsame.symm⟩

theorem placedIn_names_nodup (h : (t.labels.map (·.names)).Nodup) :
    ((placedIn t).map fun e => t.namesAt e.1).Nodup := by
  refine List.Nodup.map_on ?_ (placedIn_nodup t).of_map
  rintro ⟨i, id⟩ hi ⟨j, id'⟩ hj hsame
  obtain ⟨u, hu, _, rfl⟩ := mem_placedIn.1 hi
  obtain ⟨w, hw, _, rfl⟩ := mem_placedIn.1 hj
  rw [ModelTree.namesAt_of_node? hu, ModelTree.namesAt_of_node? hw] at hsame
  have hfirst := ModelTree.getElem?_labels_of_node? hu
  have hsecond := ModelTree.getElem?_labels_of_node? hw
  have hlt : i < (t.labels.map (·.names)).length := by
    rw [List.length_map]
    exact (List.getElem?_eq_some_iff.1 hfirst).1
  have heq : (t.labels.map (·.names))[i]? = (t.labels.map (·.names))[j]? := by
    rw [List.getElem?_map, List.getElem?_map, hfirst, hsecond]
    exact congrArg some hsame
  obtain rfl := (List.getElem?_inj hlt h).1 heq
  rw [hu] at hw
  rw [Option.some.inj hw]

theorem interfacesExact (hnames : (t.labels.map (·.names)).Nodup)
    (hinterfaces : p.unions.interfaces =
      OrderedMap.pushAll [] (implementedIn t p.unions.shapes (placedIn t)))
    (hvariants : ∀ index u, t.node? index = some u → u.kind = .sealed →
      ∃ shape, p.unions.shapes.get? index = some shape ∧
        Exact d t u (d.node u.id).oneOf shape.variants) : InterfacesExact d t p := by
  have hlisted : ∀ v, (p.unions.interfaces.get? v).getD [] = (placedIn t).flatMap fun e =>
      List.replicate ((typesOf p.unions.shapes e.1).count v) (t.namesAt e.1) := fun v => by
    rw [hinterfaces, OrderedMap.getD_pushAll, implementedIn, listedUnder_flatMap]
  have hcount : ∀ index u, t.node? index = some u → u.kind = .sealed → ∀ v,
      ((p.unions.interfaces.get? v).getD []).count u.names =
        (typesOf p.unions.shapes index).count v := fun index u hu hk v => by
    rw [hlisted, ← ModelTree.namesAt_of_node? hu]
    exact count_flatMap_replicate (placedIn_names_nodup hnames)
      (fun e => (typesOf p.unions.shapes e.1).count v) (mem_placedIn.2 ⟨u, hu, hk, rfl⟩)
  have hdistinct : ∀ index u, t.node? index = some u → u.kind = .sealed →
      ((typesOf p.unions.shapes index).Nodup ↔ ∀ v, ¬Coincide d t u v) := fun index u hu hk => by
    obtain ⟨shape, hshape, hexact⟩ := hvariants index u hu hk
    rw [typesOf, hshape]
    exact hexact.nodup_names_iff
  refine ⟨?_, fun v => ?_, hlisted, hcount, fun index u hu hk => ?_, fun hapart v => ?_⟩
  · rw [hinterfaces, OrderedMap.keys_pushAll]
    exact OrderedSet.nodup_ofList _
  · rw [hinterfaces, OrderedMap.keys_pushAll, OrderedSet.mem_ofList, implementedIn,
      List.map_flatMap, List.mem_flatMap]
    simp
  · rw [← hdistinct index u hu hk, List.nodup_iff_count_eq_one]
    exact forall₂_congr fun v _ => by rw [hcount index u hu hk]
  · have hnodup : ∀ e ∈ placedIn t, (typesOf p.unions.shapes e.1).Nodup := by
      rintro ⟨index, id⟩ he
      obtain ⟨u, hu, hk, rfl⟩ := mem_placedIn.1 he
      exact (hdistinct index u hu hk).2 (hapart u (List.mem_of_getElem? hu) hk)
    rw [hlisted, flatMap_replicate_count hnodup fun e => t.namesAt e.1]

theorem resolve_interfaces {r : Reachability} {text : String} {l : Options}
    {complaints : List String} (hload : Document.load text l = .ok (d, complaints))
    (hr : d.reachable o = .ok r) (ht : ModelTree.build d r = .ok t) (hp : resolve d t = .ok p) :
    InterfacesExact d t p := by
  have hd := Document.rooted_of_load hload
  have hf := ((Document.reachable_meets hd o).of_ok hr).followable
  obtain ⟨hb, _⟩ := ModelTree.built_of_build hd hr ht
  exact interfacesExact hb.sound.names ((resolve_implemented hd hf hb).of_ok hp)
    ((resolve_exact hload hr ht).1 p hp).1.variants

def aliased : String :=
  "\x7bopenapi: '3.1', info: \x7b\x7d, components: \x7bschemas: \x7bCat: \x7btype: object\x7d, " ++
    "Feline: \x7b$ref: '#/components/schemas/Cat'\x7d, Pet: \x7boneOf: [" ++
      "\x7b$ref: '#/components/schemas/Cat'\x7d, " ++
        "\x7b$ref: '#/components/schemas/Feline'\x7d], x-force-include: true\x7d\x7d\x7d\x7d"

theorem aliased_resolves : ∃ d r t p, Document.load aliased {} = .ok (d, []) ∧
    d.reachable {} = .ok r ∧ ModelTree.build d r = .ok t ∧ resolve d t = .ok p ∧
      (t.nodes.filter (·.kind = .sealed)).map (·.names) = [⟨["Pet"]⟩] ∧
        p.unions.interfaces = [(⟨["Cat"]⟩, [⟨["Pet"]⟩, ⟨["Pet"]⟩])] := by
  have hcheck : ((Document.load aliased {}).toOption.any fun x => x.2.isEmpty &&
      (x.1.reachable {}).toOption.any fun r =>
        (ModelTree.build x.1 r).toOption.any fun t => (resolve x.1 t).toOption.any fun p =>
          decide ((t.nodes.filter (·.kind = .sealed)).map (·.names) = [⟨["Pet"]⟩] ∧
            p.unions.interfaces = [(⟨["Cat"]⟩, [⟨["Pet"]⟩, ⟨["Pet"]⟩])])) = true := by
    decide +kernel
  obtain ⟨d, hload, hreached⟩ := quiet_of_any hcheck
  obtain ⟨r, hr, hbuilt⟩ := ok_of_any hreached
  obtain ⟨t, ht, hresolved⟩ := ok_of_any hbuilt
  obtain ⟨p, hp, htable⟩ := ok_of_any hresolved
  exact ⟨d, r, t, p, hload, hr, ht, hp, of_decide_eq_true htable⟩

theorem resolve_interfaces_aliased : ∃ d r t p, Document.load aliased {} = .ok (d, []) ∧
    d.reachable {} = .ok r ∧ ModelTree.build d r = .ok t ∧ resolve d t = .ok p ∧
      InterfacesExact d t p := by
  obtain ⟨d, r, t, p, hload, hr, ht, hp, _⟩ := aliased_resolves
  exact ⟨d, r, t, p, hload, hr, ht, hp, resolve_interfaces hload hr ht hp⟩

theorem aliased_listed_twice : ∃ d r t p, Document.load aliased {} = .ok (d, []) ∧
    d.reachable {} = .ok r ∧ ModelTree.build d r = .ok t ∧ resolve d t = .ok p ∧
      ∃ u ∈ t.nodes, u.kind = .sealed ∧
        ((p.unions.interfaces.get? ⟨["Cat"]⟩).getD []).count u.names = 2 := by
  obtain ⟨d, r, t, p, hload, hr, ht, hp, hunions, htable⟩ := aliased_resolves
  have hmem : ⟨["Pet"]⟩ ∈ (t.nodes.filter (·.kind = .sealed)).map (·.names) := by
    rw [hunions]
    exact List.mem_cons_self
  obtain ⟨u, hu, hnames⟩ := List.mem_map.1 hmem
  obtain ⟨hu, hk⟩ := List.mem_filter.1 hu
  refine ⟨d, r, t, p, hload, hr, ht, hp, u, hu, of_decide_eq_true hk, ?_⟩
  rw [htable, hnames]
  decide

end Unions

end ApiModel
