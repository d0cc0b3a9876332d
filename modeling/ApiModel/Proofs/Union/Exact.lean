import ApiModel.Proofs.Union.Resolved
import ApiModel.Proofs.Union.Tags

namespace ApiModel

namespace Unions

def referencedOf (d : Document) (members : List Nat) (variants : List SealedVariant) :
    List (TypeNames × String) :=
  (members.zip variants).filterMap fun (member, v) =>
    if (d.node member).reference.isSome then some (v.names, v.tag) else none

def referencedIn (d : Document) (shapes : OrderedMap Nat UnionShape) (unions : List (Nat × Nat)) :
    List (TypeNames × String) :=
  unions.flatMap fun (index, id) =>
    referencedOf d (d.node id).oneOf ((shapes.get? index).elim [] (·.variants))

def keepFirst (m : OrderedMap TypeNames String) (entries : List (TypeNames × String)) :
    OrderedMap TypeNames String := entries.foldl (fun acc e => acc.insertNew e.1 e.2) m

structure Exact (d : Document) (t : ModelTree) (u : ModelNode) (members : List Nat)
    (variants : List SealedVariant) : Prop where
  length : variants.length = members.length
  means : ∀ number member v, members[number]? = some member → variants[number]? = some v →
    Means d t u number member v
  tags : (variants.map (·.tag)).Nodup

def Clashes (d : Document) (t : ModelTree) (u : ModelNode) (tag : String) : Prop :=
  ∃ i j first second v w, i < j ∧ (d.node u.id).oneOf[i]? = some first ∧
    (d.node u.id).oneOf[j]? = some second ∧ Means d t u i first v ∧ Means d t u j second w ∧
      v.tag = tag ∧ w.tag = tag

def Blames (d : Document) (t : ModelTree) (u : ModelNode) (e : ConversionError) : Prop :=
  ∀ name tag, e = .duplicateTag name tag → name = u.names.joined ∧ Clashes d t u tag

variable {d : Document} {o : Options} {t : ModelTree} {p : Placed} {u : ModelNode}
  {union number member : Nat} {members done rest : List Nat} {variants : List SealedVariant}
  {v : SealedVariant} {tag : String}

theorem blames_of_tagless {e : ConversionError} (h : e.Tagless) : Blames d t u e := by
  rintro name tag rfl
  exact h.elim

namespace Exact

theorem nil : Exact d t u [] [] := ⟨rfl, by simp, by simp⟩

theorem push (h : Exact d t u members variants) (hv : Means d t u members.length member v)
    (hnew : ∀ w ∈ variants, w.tag ≠ v.tag) :
    Exact d t u (members ++ [member]) (variants ++ [v]) where
  length := by simp [h.length]
  means number m w hm hw := by
    have hlength := h.length
    rw [List.getElem?_append] at hm hw
    split at hm
    · next hlt =>
      rw [if_pos (by omega)] at hw
      exact h.means number m w hm hw
    · next hge =>
      rw [if_neg (by omega)] at hw
      obtain ⟨hnumber, hmember⟩ := List.getElem?_eq_some_iff.1 hm
      obtain ⟨_, hvariant⟩ := List.getElem?_eq_some_iff.1 hw
      simp only [List.length_singleton, Nat.lt_one_iff] at hnumber
      simp only [List.getElem_singleton] at hmember hvariant
      have heq : number = members.length := by omega
      rwa [← hmember, ← hvariant, heq]
  tags := by
    rw [List.map_append]
    refine List.concat_eq_append ▸ h.tags.concat fun hmem => ?_
    obtain ⟨w, hw, htag⟩ := List.mem_map.1 hmem
    exact hnew w hw htag

theorem clash (h : Exact d t u done variants)
    (hsplit : (d.node u.id).oneOf = done ++ member :: rest)
    (hv : Means d t u done.length member v) {w : SealedVariant} (hw : w ∈ variants)
    (htag : w.tag = v.tag) : Clashes d t u v.tag := by
  obtain ⟨i, hi⟩ := List.getElem?_of_mem hw
  have hlt := (List.getElem?_eq_some_iff.1 hi).1
  rw [h.length] at hlt
  have hfirst : (d.node u.id).oneOf[i]? = some done[i] := by
    rw [hsplit, List.getElem?_append_left hlt, List.getElem?_eq_getElem hlt]
  have hsecond : (d.node u.id).oneOf[done.length]? = some member := by
    rw [hsplit, List.getElem?_append_right (Nat.le_refl _), Nat.sub_self]
    rfl
  exact ⟨i, done.length, done[i], member, w, v, hlt, hfirst, hsecond,
    h.means i _ w (List.getElem?_eq_getElem hlt) hi, hv, htag, rfl⟩

theorem not_clashes (h : Exact d t u (d.node u.id).oneOf variants) : ¬Clashes d t u tag := by
  rintro ⟨i, j, first, second, v, w, hlt, hfirst, hsecond, hv, hw, htag, htag'⟩
  have hj := (List.getElem?_eq_some_iff.1 hsecond).1
  rw [← h.length] at hj
  have hvi : variants[i]? = some variants[i] := List.getElem?_eq_getElem (Nat.lt_trans hlt hj)
  have hvj : variants[j]? = some variants[j] := List.getElem?_eq_getElem hj
  have hi' := (h.means i first _ hfirst hvi).unique hv
  have hj' := (h.means j second _ hsecond hvj).unique hw
  have hsame : (variants.map (·.tag))[i]? = (variants.map (·.tag))[j]? := by
    rw [List.getElem?_map, List.getElem?_map, hvi, hvj, hi', hj', Option.map_some, Option.map_some,
      htag, htag']
  have hij := (List.getElem?_inj (by simpa using Nat.lt_trans hlt hj) h.tags).1 hsame
  omega

end Exact

theorem referencedOf_push (hlength : variants.length = members.length) :
    referencedOf d (members ++ [member]) (variants ++ [v]) =
      referencedOf d members variants ++ referencedOf d [member] [v] := by
  simp only [referencedOf]
  rw [List.zip_append hlength.symm, List.filterMap_append]

theorem keepFirst_append (m : OrderedMap TypeNames String)
    (entries more : List (TypeNames × String)) :
    keepFirst m (entries ++ more) = keepFirst (keepFirst m entries) more :=
  List.foldl_append

theorem variant_exact (hd : d.Rooted) (hb : ModelTree.Built d o t) (hstanding : t.Standing d o)
    (h : Resolving d o t p) (hu : t.node? union = some u) (hk : u.kind = .sealed)
    (hm : (d.node u.id).oneOf[number]? = some member) :
    Meets (variant d union (mappingOf (d.node u.id)) p member)
      (fun x => Means d t u number member x.1 ∧
        x.2.unions.serialNames = keepFirst p.unions.serialNames (referencedOf d [member] [x.1]))
      ConversionError.Tagless := by
  have hsame := hb.sound.names?_eq h.built.sound h.labels
  unfold variant
  simp only
  split
  · next reference href =>
    apply namedReference_first.bind
    intro names _ hnames
    split
    · trivial
    · next declared hdeclared =>
      apply (nestVariant_tagless names union).bind
      intro tree _ _
      refine ⟨.referenced href (hnames.of_names hsame) hdeclared (tagOf_iff.2 rfl), ?_⟩
      simp [keepFirst, referencedOf, href]
  · next href =>
    obtain ⟨index, l, hl, hid, _, hnames⟩ :=
      hstanding.inline_child hd hb (ModelTree.getElem?_labels_of_node? hu) hk hm href
    have hfound : p.tree.names? member = some (u.names.child ("OneOf" ++ toString number)) := by
      rw [hsame, hb.sound.names?_iff]
      exact ⟨l, List.mem_of_getElem? hl, hid, hnames⟩
    rw [hfound]
    simp only
    refine ⟨?_, by simp [keepFirst, referencedOf, href]⟩
    rw [TypeNames.joined_child, ← String.append_assoc]
    exact .inline href

theorem addMember_exact (hd : d.Rooted) (hb : ModelTree.Built d o t) (hstanding : t.Standing d o)
    (h : Resolving d o t p) (hu : t.node? union = some u) (hk : u.kind = .sealed)
    (hsplit : (d.node u.id).oneOf = done ++ member :: rest) (hexact : Exact d t u done variants) :
    Meets (addMember d union (mappingOf (d.node u.id)) (variants, p) member)
      (fun x => Exact d t u (done ++ [member]) x.1 ∧ ∃ v, x.1 = variants ++ [v] ∧
        x.2.unions.serialNames = keepFirst p.unions.serialNames (referencedOf d [member] [v]))
      (Blames d t u) := by
  have hm : (d.node u.id).oneOf[done.length]? = some member := by
    rw [hsplit, List.getElem?_append_right (Nat.le_refl _), Nat.sub_self]
    rfl
  have hnames : p.tree.namesAt union = u.names := by
    have hlabel := ModelTree.getElem?_labels_of_node? hu
    rw [← h.labels] at hlabel
    exact ModelTree.namesAt_of_label hlabel
  unfold addMember
  simp only
  refine ((variant_exact hd hb hstanding h hu hk hm).mono (fun _ hx => hx)
    fun _ => blames_of_tagless).bind ?_
  rintro ⟨v, p'⟩ _ ⟨hv, hserial⟩
  simp only at hv hserial ⊢
  split
  · next hany =>
    obtain ⟨w, hw, htag⟩ := List.any_eq_true.1 hany
    rintro name tag heq
    cases heq
    rw [hnames]
    exact ⟨rfl, hexact.clash hsplit hv hw (beq_iff_eq.1 htag)⟩
  · next hnone =>
    refine ⟨hexact.push hv fun w hw htag => ?_, v, rfl, hserial⟩
    exact hnone (List.any_eq_true.2 ⟨w, hw, beq_iff_eq.2 htag⟩)

theorem resolveOne_exact (hd : d.Rooted) (hf : d.Followable o) (hb : ModelTree.Built d o t)
    (hstanding : t.Standing d o) (h : Resolving d o t p) (hu : t.node? union = some u)
    (hk : u.kind = .sealed) :
    Meets (resolveOne d p (union, u.id)) (fun p' => ∃ shape,
      p'.unions.shapes = p.unions.shapes.insert union shape ∧
        Exact d t u (d.node u.id).oneOf shape.variants ∧
        p'.unions.serialNames = keepFirst p.unions.serialNames
          (referencedOf d (d.node u.id).oneOf shape.variants)) (Blames d t u) := by
  have hl := ModelTree.getElem?_labels_of_node? hu
  unfold resolveOne
  refine (Meets.foldlM (fun done acc => (Exact d t u done acc.1 ∧
    acc.2.unions.serialNames = keepFirst p.unions.serialNames (referencedOf d done acc.1)) ∧
      (∀ v ∈ acc.1, t.Named v.names) ∧ Resolving d o t acc.2 ∧
        acc.2.unions.shapes = p.unions.shapes) ⟨⟨.nil, rfl⟩, by simp, h, rfl⟩ ?_).bind ?_
  · rintro done member rest ⟨variants, p'⟩ hsplit ⟨⟨hexact, hserial⟩, hnamed, h', hshapes⟩
    have hm : member ∈ (d.node u.id).oneOf := by simp [hsplit]
    refine ((addMember_exact hd hb hstanding h' hu hk hsplit hexact).and
      (addMember_meets hd hf h' hnamed hl hk hm)).weaken ?_
    rintro ⟨_, p''⟩ ⟨⟨hexact', v, rfl, hserial'⟩, hnamed', h'', hshapes'⟩
    refine ⟨⟨hexact', ?_⟩, hnamed', h'', hshapes'.trans hshapes⟩
    rw [hserial', hserial, referencedOf_push hexact.length, keepFirst_append]
  · rintro ⟨variants, p'⟩ _ ⟨⟨hexact, hserial⟩, _, _, hshapes⟩
    refine ⟨⟨discriminatorOf (d.node u.id), variants⟩, ?_, hexact, hserial⟩
    exact congrArg (OrderedMap.insert · union _) hshapes

theorem placedIn_nodup (t : ModelTree) : ((placedIn t).map (·.1)).Nodup := by
  have hpositions : (t.nodes.zipIdx.map (·.2)).Nodup := by
    rw [List.zipIdx_map_snd]
    exact List.nodup_range'
  refine List.pairwise_map.2 (List.pairwise_filterMap.2 ((List.pairwise_map.1 hpositions).imp ?_))
  rintro ⟨n, i⟩ ⟨m, j⟩ hne e he e' he'
  simp only [Option.ite_none_right_eq_some, Option.some.injEq] at he he'
  rwa [← he.2, ← he'.2]

theorem referencedIn_insert {shapes : OrderedMap Nat UnionShape} {unions : List (Nat × Nat)}
    {index : Nat} (shape : UnionShape) (hnew : index ∉ unions.map (·.1)) :
    referencedIn d (shapes.insert index shape) unions = referencedIn d shapes unions := by
  simp only [referencedIn, List.flatMap_def]
  congr 1
  refine List.map_congr_left fun e he => ?_
  have hne : e.1 ≠ index := fun heq => hnew (heq ▸ List.mem_map.2 ⟨e, he, rfl⟩)
  rw [OrderedMap.get?_insert_of_ne _ _ hne]

structure Settled (d : Document) (t : ModelTree) (unions : List (Nat × Nat)) (p : Placed) :
    Prop where
  shapes : ∀ e ∈ unions, ∀ u, t.node? e.1 = some u →
    ∃ shape, p.unions.shapes.get? e.1 = some shape ∧
      Exact d t u (d.node u.id).oneOf shape.variants
  serialNames : p.unions.serialNames = keepFirst [] (referencedIn d p.unions.shapes unions)

theorem Settled.next {unions : List (Nat × Nat)} {p' : Placed} {shape : UnionShape}
    (h : Settled d t unions p) (hnew : union ∉ unions.map (·.1)) (hu : t.node? union = some u)
    (hshapes : p'.unions.shapes = p.unions.shapes.insert union shape)
    (hexact : Exact d t u (d.node u.id).oneOf shape.variants)
    (hserial : p'.unions.serialNames = keepFirst p.unions.serialNames
      (referencedOf d (d.node u.id).oneOf shape.variants)) :
    Settled d t (unions ++ [(union, u.id)]) p' where
  shapes := by
    rw [hshapes]
    refine List.forall_mem_append.2
      ⟨fun e he w hw => ?_, List.forall_mem_singleton.2 fun w hw => ?_⟩
    · have hne : e.1 ≠ union := fun heq => hnew (heq ▸ List.mem_map.2 ⟨e, he, rfl⟩)
      rw [OrderedMap.get?_insert_of_ne _ _ hne]
      exact h.shapes e he w hw
    · rw [hu] at hw
      cases hw
      exact ⟨shape, OrderedMap.get?_insert_self _ _ _, hexact⟩
  serialNames := by
    have hlast : referencedIn d (p.unions.shapes.insert union shape) [(union, u.id)] =
        referencedOf d (d.node u.id).oneOf shape.variants := by
      simp only [referencedIn, List.flatMap_singleton, OrderedMap.get?_insert_self,
        Option.elim_some]
    have happend : referencedIn d p'.unions.shapes (unions ++ [(union, u.id)]) =
        referencedIn d p.unions.shapes unions ++
          referencedOf d (d.node u.id).oneOf shape.variants := by
      rw [hshapes, ← hlast, ← referencedIn_insert shape hnew]
      exact List.flatMap_append
    rw [happend, keepFirst_append, ← h.serialNames, hserial]

theorem resolve_settled (hd : d.Rooted) (hf : d.Followable o) (hb : ModelTree.Built d o t)
    (hstanding : t.Standing d o) :
    Meets (resolve d t) (fun p => Settled d t (placedIn t) p ∧ Resolving d o t p)
      fun e => ∀ name tag, e = .duplicateTag name tag →
        ∃ u ∈ t.nodes, u.kind = .sealed ∧ name = u.names.joined ∧ Clashes d t u tag := by
  have hfirst : Resolving d o t ⟨t, {}⟩ := ⟨hb, .refl, rfl, .empty t⟩
  unfold resolve
  have hnone : Settled d t [] ⟨t, {}⟩ := ⟨by simp, rfl⟩
  refine Meets.foldlM (fun done p => Settled d t done p ∧ Resolving d o t p) ⟨hnone, hfirst⟩ ?_
  rintro done ⟨index, id⟩ rest p hsplit ⟨hsettled, h⟩
  have hplaced : (index, id) ∈ placedIn t := by simp [hsplit]
  obtain ⟨u, hu, hk, rfl⟩ := mem_placedIn.1 hplaced
  have hnew : index ∉ done.map (·.1) := by
    have hnodup := placedIn_nodup t
    rw [hsplit, List.map_append, List.map_cons, List.nodup_append] at hnodup
    intro hmem
    exact hnodup.2.2 index hmem index List.mem_cons_self rfl
  have hl := ModelTree.getElem?_labels_of_node? hu
  have hone := resolveOne_exact hd hf hb hstanding h hu hk
  have hmeets := resolveOne_meets hd hf h hl hk
  have hboth := hone.and hmeets
  refine hboth.mono ?_ ?_
  · rintro p' ⟨⟨shape, hshapes, hexact, hserial⟩, h', _⟩
    exact ⟨hsettled.next hnew hu hshapes hexact hserial, h'⟩
  · intro e hblames name tag heq
    exact ⟨u, List.mem_of_getElem? hu, hk, hblames name tag heq⟩

structure ResolvedExactly (d : Document) (t : ModelTree) (p : Placed) : Prop where
  labels : p.tree.labels = t.labels
  variants : ∀ index u, t.node? index = some u → u.kind = .sealed →
    ∃ shape, p.unions.shapes.get? index = some shape ∧
      Exact d t u (d.node u.id).oneOf shape.variants
  inline : ∀ index u, t.node? index = some u → u.kind = .sealed → ∀ number member : Nat,
    (d.node u.id).oneOf[number]? = some member → (d.node member).reference = none →
      ∃ child n, p.tree.node? child = some n ∧ n.id = member ∧ n.parent = some index ∧
        n.names = u.names.child ("OneOf" ++ toString number)
  keys : p.unions.serialNames.keys.Nodup
  serialNames : ∀ names, p.unions.serialNames.get? names =
    OrderedMap.get? (referencedIn d p.unions.shapes (placedIn t)) names

theorem inline_below (hd : d.Rooted) (hb : ModelTree.Built d o t) (hstanding : t.Standing d o)
    (h : Resolving d o t p) (hu : t.node? union = some u) (hk : u.kind = .sealed)
    (hmember : (d.node u.id).oneOf[number]? = some member)
    (href : (d.node member).reference = none) :
    ∃ child n, p.tree.node? child = some n ∧ n.id = member ∧ n.parent = some union ∧
      n.names = u.names.child ("OneOf" ++ toString number) := by
  obtain ⟨child, l, hl, hid, hparent, hnames⟩ :=
    hstanding.inline_child hd hb (ModelTree.getElem?_labels_of_node? hu) hk hmember href
  rw [← h.labels, ModelTree.getElem?_labels, Option.map_eq_some_iff] at hl
  obtain ⟨n, hn, rfl⟩ := hl
  have hkept := h.run.parent? hparent
  rw [ModelTree.parent?, hn] at hkept
  exact ⟨child, n, hn, hid, hkept, hnames⟩

theorem resolve_exact {r : Reachability} {text : String} {l : Options} {complaints : List String}
    (hload : Document.load text l = .ok (d, complaints)) (hr : d.reachable o = .ok r)
    (ht : ModelTree.build d r = .ok t) :
    (∀ p, resolve d t = .ok p → ResolvedExactly d t p ∧
      ∀ u ∈ t.nodes, u.kind = .sealed → ∀ tag, ¬Clashes d t u tag) ∧
      ∀ name tag, resolve d t = .error (.duplicateTag name tag) →
        ∃ u ∈ t.nodes, u.kind = .sealed ∧ name = u.names.joined ∧ Clashes d t u tag := by
  have hd := Document.rooted_of_load hload
  have hf := ((Document.reachable_meets hd o).of_ok hr).followable
  obtain ⟨hb, hstanding⟩ := ModelTree.built_of_build hd hr ht
  have hmeets := resolve_settled hd hf hb hstanding
  refine ⟨fun p hp => ?_, fun name tag he => hmeets.of_error he name tag rfl⟩
  obtain ⟨hsettled, h⟩ := hmeets.of_ok hp
  have hvariants : ∀ index u, t.node? index = some u → u.kind = .sealed →
      ∃ shape, p.unions.shapes.get? index = some shape ∧
        Exact d t u (d.node u.id).oneOf shape.variants := by
    intro index u hu hk
    exact hsettled.shapes (index, u.id) (mem_placedIn.2 ⟨u, hu, hk, rfl⟩) u hu
  refine ⟨⟨h.labels, hvariants, ?_, h.within.serialNames_nodup, fun names => ?_⟩, ?_⟩
  · intro index u hu hk number member hmember href
    exact inline_below hd hb hstanding h hu hk hmember href
  · rw [hsettled.serialNames, keepFirst, OrderedMap.get?_foldl_insertNew, List.nil_append]
  · intro u hu hk tag
    obtain ⟨index, hindex⟩ := List.getElem?_of_mem hu
    obtain ⟨shape, _, hexact⟩ := hvariants index u hindex hk
    exact hexact.not_clashes

def clashing : String :=
  "\x7bopenapi: '3.1', info: \x7b\x7d, components: \x7bschemas: \x7bUOneOf0: \x7b\x7d, " ++
    "U: \x7boneOf: [\x7b\x7d, \x7b$ref: '#/components/schemas/UOneOf0'\x7d]\x7d\x7d\x7d\x7d"

theorem clashing_fails : ∃ d r t, Document.load clashing {} = .ok (d, []) ∧
    d.reachable Document.keepAll = .ok r ∧ ModelTree.build d r = .ok t ∧
      resolve d t = .error (.duplicateTag "U" "UOneOf0") := by
  have hcheck : ((Document.load clashing {}).toOption.any fun x => x.2.isEmpty &&
      (x.1.reachable Document.keepAll).toOption.any fun r =>
        (ModelTree.build x.1 r).toOption.any fun t => match resolve x.1 t with
          | .ok _ => false
          | .error e => decide (e = .duplicateTag "U" "UOneOf0")) = true := by
    decide +kernel
  obtain ⟨d, hload, hreached⟩ := quiet_of_any hcheck
  obtain ⟨r, hr, hbuilt⟩ := ok_of_any hreached
  obtain ⟨t, ht, hresolved⟩ := ok_of_any hbuilt
  refine ⟨d, r, t, hload, hr, ht, ?_⟩
  cases he : resolve d t with
  | ok p => simp [he] at hresolved
  | error e =>
    simp only [he, decide_eq_true_eq] at hresolved
    rw [hresolved]

theorem resolve_exact_samples :
    (∃ d r t p, Document.load ModelTree.nested {} = .ok (d, []) ∧
      d.reachable Document.keepAll = .ok r ∧ ModelTree.build d r = .ok t ∧
        resolve d t = .ok p ∧ ResolvedExactly d t p) ∧
      ∃ d r t, Document.load clashing {} = .ok (d, []) ∧ d.reachable Document.keepAll = .ok r ∧
        ModelTree.build d r = .ok t ∧ resolve d t = .error (.duplicateTag "U" "UOneOf0") ∧
          ∃ u ∈ t.nodes, u.kind = .sealed ∧ "U" = u.names.joined ∧ Clashes d t u "UOneOf0" := by
  obtain ⟨d, r, t, p, hload, hr, ht, hp, _⟩ := ModelTree.nested_resolves
  obtain ⟨d', r', t', hload', hr', ht', he⟩ := clashing_fails
  have hexact := ((resolve_exact hload hr ht).1 p hp).1
  have hclash := (resolve_exact hload' hr' ht').2 "U" "UOneOf0" he
  exact ⟨⟨d, r, t, p, hload, hr, ht, hp, hexact⟩, d', r', t', hload', hr', ht', he, hclash⟩

end Unions

end ApiModel
