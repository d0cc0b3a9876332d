import ApiModel.Proofs.ModelTree.Moves
import ApiModel.Proofs.Union.Exact
/-!
Resolving unions hangs a root under the first union that lists it and is not below it at that time.
What stands above a union is the same before and after its turn, and only grows over the whole run.
-/

namespace ApiModel

theorem Above.mono {parent parent' : Nat → Option Nat} {a i : Nat}
    (h : ∀ c p, parent c = some p → parent' c = some p) (ha : Above parent a i) :
    Above parent' a i := Relation.ReflTransGen.mono h _ _ ha

/-- Some roots are hung under a position, those that do not stand above it. -/
structure Hung (parent parent' : Nat → Option Nat) (under : Nat) (listed : Nat → Prop) : Prop where
  moves : ∀ i, parent i = none → listed i → ¬Above parent i under → parent' i = some under
  stays : ∀ i, ¬(parent i = none ∧ listed i ∧ ¬Above parent i under) → parent' i = parent i

namespace Hung

variable {parent parent' parent'' : Nat → Option Nat} {under a i : Nat}
  {listed listed' : Nat → Prop}

theorem refl (h : ∀ i, parent i = none → listed i → Above parent i under) :
    Hung parent parent under listed :=
  ⟨fun i hi hs hnot => absurd (h i hi hs) hnot, fun _ _ => rfl⟩

theorem keeps (h : Hung parent parent' under listed) {p : Nat} (hp : parent i = some p) :
    parent' i = some p := by
  rw [h.stays i fun ⟨hnone, _⟩ => by rw [hp] at hnone; cases hnone]
  exact hp

theorem of_above (h : Hung parent parent' under listed) (ha : Above parent i under) :
    parent' i = parent i := h.stays i fun ⟨_, _, hnot⟩ => hnot ha

theorem above_iff (h : Hung parent parent' under listed) :
    Above parent' a under ↔ Above parent a under := by
  constructor
  · intro ha
    induction ha with
    | refl => exact .refl parent under
    | tail _ hp ih =>
      rw [h.of_above ih] at hp
      exact Relation.ReflTransGen.tail ih hp
  · exact Above.mono fun c p => h.keeps

theorem trans (h : Hung parent parent' under listed) (h' : Hung parent' parent'' under listed') :
    Hung parent parent'' under fun i => listed i ∨ listed' i where
  moves i hi hs hnot := by
    by_cases hfirst : listed i
    · exact h'.keeps (h.moves i hi hfirst hnot)
    · have hstill : parent' i = none := (h.stays i fun ⟨_, hs, _⟩ => hfirst hs).trans hi
      exact h'.moves i hstill (hs.resolve_left hfirst) fun ha => hnot (h.above_iff.1 ha)
  stays i hi := by
    have hfirst : parent' i = parent i :=
      h.stays i fun ⟨hnone, hs, hnot⟩ => hi ⟨hnone, .inl hs, hnot⟩
    rw [← hfirst]
    refine h'.stays i fun ⟨hnone, hs, hnot⟩ => hi ⟨hfirst ▸ hnone, .inr hs, fun ha => ?_⟩
    exact hnot (h.above_iff.2 ha)

theorem congr (h : Hung parent parent' under listed) (hiff : ∀ i, listed' i ↔ listed i) :
    Hung parent parent' under listed' := by
  rwa [funext fun i => propext (hiff i)]

end Hung

namespace ModelTree

variable {d : Document} {o : Options} {t : ModelTree} {names : TypeNames} {union index : Nat}

theorem Sound.find?_iff (h : t.Sound d o) :
    t.find? names = some index ↔ ∃ n, t.node? index = some n ∧ n.names = names :=
  (IsForest.linked h.forest h.ids h.names).names names index

theorem nestVariant_hung (h : t.Sound d o) (hu : union < t.nodes.length) :
    Meets (t.nestVariant names union) (fun t' => Hung t.parent? t'.parent? union fun i =>
      ∃ n, t.node? i = some n ∧ n.names = names) fun _ => True := by
  unfold nestVariant
  split
  · trivial
  · next index hindex =>
    have hunique : ∀ i, (∃ n, t.node? i = some n ∧ n.names = names) → i = index := by
      intro i hi
      rw [← h.find?_iff, hindex] at hi
      exact (Option.some.inj hi).symm
    split
    · next hkept =>
      refine .refl fun i hroot hi => ?_
      obtain rfl := hunique i hi
      rw [hroot, Option.isSome_none, Bool.false_or] at hkept
      exact (IsForest.isAncestor_iff h.forest hu).1 hkept
    · cases hmove : (t.note (.nested names (t.namesAt union))).moveUnder index union with
      | error e => trivial
      | ok moved =>
        obtain ⟨hroot, hnot, rfl⟩ := moveUnder_eq_ok hmove
        obtain ⟨n, hn, hnames⟩ := h.find?_iff.1 hindex
        rw [parent?_note] at hroot
        rw [isAncestor_note] at hnot
        simp only [Meets.ok_iff]
        rw [parent?_hang (lt_of_node? (t := t.note _) hn), parent?_note]
        refine ⟨fun i _ hi _ => if_pos (hunique i hi), fun i hi => if_neg ?_⟩
        rintro rfl
        refine hi ⟨hroot, ⟨n, hn, hnames⟩, fun habove => ?_⟩
        rw [← IsForest.isAncestor_iff h.forest hu, hnot] at habove
        cases habove

end ModelTree

def Refers (d : Document) (t : ModelTree) (member index : Nat) : Prop :=
  ∃ reference n, (d.node member).reference = some reference ∧ t.node? index = some n ∧
    FirstNamed d t reference n.names

def Lists (d : Document) (t : ModelTree) (members : List Nat) (index : Nat) : Prop :=
  ∃ member ∈ members, Refers d t member index

theorem lists_push {d : Document} {t : ModelTree} {members : List Nat} {member index : Nat} :
    Lists d t (members ++ [member]) index ↔ Lists d t members index ∨ Refers d t member index := by
  simp [Lists, or_and_right, exists_or]

namespace Unions

variable {d : Document} {o : Options} {t : ModelTree} {p : Placed} {u : ModelNode}
  {union index member : Nat} {mapping : OrderedMap String String}

theorem exists_node_names (h : Resolving d o t p) {names : TypeNames} :
    (∃ n, p.tree.node? index = some n ∧ n.names = names) ↔
      ∃ n, t.node? index = some n ∧ n.names = names := by
  have hlabel := congrArg (fun labels => labels[index]?.map Label.names) h.labels
  simp only [ModelTree.getElem?_labels, Option.map_map] at hlabel
  have hiff : ∀ t : ModelTree, (∃ n, t.node? index = some n ∧ n.names = names) ↔
      (t.node? index).map (Label.names ∘ ModelNode.label) = some names := by
    intro t
    rw [Option.map_eq_some_iff]
    rfl
  rw [hiff, hiff, hlabel]

theorem variant_hung (hsound : t.Sound d o) (h : Resolving d o t p)
    (hu : union < t.nodes.length) :
    Meets (variant d union mapping p member)
      (fun x => Hung p.tree.parent? x.2.tree.parent? union (Refers d t member)) fun _ => True := by
  have hsame := hsound.names?_eq h.built.sound h.labels
  have hlength : p.tree.nodes.length = t.nodes.length := by
    rw [← ModelTree.length_labels, h.labels, ModelTree.length_labels]
  unfold variant
  simp only
  split
  · next reference href =>
    refine (namedReference_first.mono (fun _ hx => hx) fun _ _ => trivial).bind fun names _ hn => ?_
    have hfirst := hn.of_names hsame
    split
    · trivial
    · next declared _ =>
      refine (ModelTree.nestVariant_hung h.built.sound (hlength ▸ hu)).bind fun tree _ hung => ?_
      refine hung.congr fun i => ?_
      rw [exists_node_names h]
      constructor
      · rintro ⟨reference', n, href', hi, hother⟩
        rw [href] at href'
        cases href'
        exact ⟨n, hi, hother.unique hfirst⟩
      · rintro ⟨n, hi, rfl⟩
        exact ⟨reference, n, href, hi, hfirst⟩
  · next href =>
    split
    · refine .refl fun i _ hrefers => ?_
      obtain ⟨reference, _, href', _⟩ := hrefers
      rw [href] at href'
      cases href'
    · trivial

theorem addMember_hung (hsound : t.Sound d o) (h : Resolving d o t p)
    (hu : union < t.nodes.length) (variants : List SealedVariant) :
    Meets (addMember d union mapping (variants, p) member)
      (fun x => Hung p.tree.parent? x.2.tree.parent? union (Refers d t member)) fun _ => True := by
  unfold addMember
  apply (variant_hung hsound h hu).bind
  rintro ⟨v, p'⟩ _ hung
  simp only
  split
  · trivial
  · exact hung

theorem resolveOne_hung (hd : d.Rooted) (hf : d.Followable o) (hsound : t.Sound d o)
    (h : Resolving d o t p) (hu : t.node? union = some u) (hk : u.kind = .sealed) :
    Meets (resolveOne d p (union, u.id)) (fun p' =>
      Hung p.tree.parent? p'.tree.parent? union (Lists d t (d.node u.id).oneOf)) fun _ => True := by
  have hl := ModelTree.getElem?_labels_of_node? hu
  have hlt := ModelTree.lt_of_node? hu
  unfold resolveOne
  refine (Meets.foldlM (fun done acc =>
    Hung p.tree.parent? acc.2.tree.parent? union (Lists d t done) ∧
      (∀ v ∈ acc.1, t.Named v.names) ∧ Resolving d o t acc.2)
        ⟨.refl (by simp [Lists]), by simp, h⟩ ?_).bind ?_
  · rintro done member rest ⟨variants, p'⟩ hsplit ⟨hung, hnamed, h'⟩
    have hm : member ∈ (d.node u.id).oneOf := by simp [hsplit]
    refine ((addMember_hung hsound h' hlt variants).and
      (addMember_meets hd hf h' hnamed hl hk hm)).weaken ?_
    rintro x ⟨hung', hnamed', h'', _⟩
    exact ⟨(hung.trans hung').congr fun i => lists_push, hnamed', h''⟩
  · rintro ⟨variants, p'⟩ _ ⟨hung, _⟩
    exact hung

def turn (d : Document) (t : ModelTree) (e : Nat × Nat) : Except ConversionError Placed :=
  ((placedIn t).takeWhile (· ≠ e)).foldlM (resolveOne d) ⟨t, {}⟩

/-- A union claims what it lists and is not below when its turn comes. -/
def Claims (d : Document) (t : ModelTree) (index : Nat) (e : Nat × Nat) : Prop :=
  Lists d t (d.node e.2).oneOf index ∧
    ∃ q, turn d t e = .ok q ∧ ¬Above q.tree.parent? index e.1

open Classical in
noncomputable def placeAfter (d : Document) (t : ModelTree) (done : List (Nat × Nat))
    (index : Nat) : Option Nat :=
  (t.parent? index).or ((done.find? fun e => Claims d t index e).map (·.1))

structure NestedExactly (d : Document) (t : ModelTree) (p : Placed) : Prop where
  labels : p.tree.labels = t.labels
  turns : ∀ e ∈ placedIn t, ∃ q, turn d t e = .ok q
  parents : ∀ index, p.tree.parent? index = placeAfter d t (placedIn t) index
  left : ∀ index, p.tree.parent? index = none → ∀ e ∈ placedIn t,
    Lists d t (d.node e.2).oneOf index → Above p.tree.parent? index e.1

structure Nesting (d : Document) (t : ModelTree) (done : List (Nat × Nat)) (p : Placed) :
    Prop where
  resolved : done.foldlM (resolveOne d) ⟨t, {}⟩ = .ok p
  turns : ∀ e ∈ done, ∃ q, turn d t e = .ok q ∧
    ∀ i parent, q.tree.parent? i = some parent → p.tree.parent? i = some parent
  parents : ∀ index, p.tree.parent? index = placeAfter d t done index

theorem claims_iff {e : Nat × Nat} (hturn : turn d t e = .ok p) :
    Claims d t index e ↔
      Lists d t (d.node e.2).oneOf index ∧ ¬Above p.tree.parent? index e.1 := by
  simp only [Claims, hturn, Except.ok.injEq, exists_eq_left']

open Classical in
theorem placeAfter_push (done : List (Nat × Nat)) (e : Nat × Nat) :
    placeAfter d t (done ++ [e]) index =
      (placeAfter d t done index).or (if Claims d t index e then some e.1 else none) := by
  simp only [placeAfter, List.find?_append, List.find?_singleton, decide_eq_true_eq]
  cases t.parent? index with
  | some parent => rfl
  | none =>
    cases done.find? fun e => Claims d t index e with
    | some first => rfl
    | none => split <;> rfl

theorem placeAfter_eq_none {done : List (Nat × Nat)} : placeAfter d t done index = none ↔
    t.parent? index = none ∧ ∀ e ∈ done, ¬Claims d t index e := by
  simp [placeAfter]

theorem Nesting.next {done : List (Nat × Nat)} {e : Nat × Nat} {p' : Placed}
    (h : Nesting d t done p) (hturn : turn d t e = .ok p) (hone : resolveOne d p e = .ok p')
    (hung : Hung p.tree.parent? p'.tree.parent? e.1 (Lists d t (d.node e.2).oneOf)) :
    Nesting d t (done ++ [e]) p' where
  resolved := by
    rw [List.foldlM_append, h.resolved]
    exact (bind_pure _).trans hone
  turns := by
    refine List.forall_mem_append.2 ⟨fun first hfirst => ?_, List.forall_mem_singleton.2 ?_⟩
    · obtain ⟨q, hq, hkept⟩ := h.turns first hfirst
      exact ⟨q, hq, fun i parent hi => hung.keeps (hkept i parent hi)⟩
    · exact ⟨p, hturn, fun i parent hi => hung.keeps hi⟩
  parents index := by
    rw [placeAfter_push, ← h.parents, claims_iff hturn]
    cases hp : p.tree.parent? index with
    | some parent => exact hung.keeps hp
    | none =>
      rw [Option.none_or]
      split
      · next hclaims => exact hung.moves index hp hclaims.1 hclaims.2
      · next hnot => exact (hung.stays index fun ⟨_, hclaims⟩ => hnot hclaims).trans hp

theorem turn_of_split {done rest : List (Nat × Nat)} {e : Nat × Nat}
    (hsplit : placedIn t = done ++ e :: rest) :
    turn d t e = done.foldlM (resolveOne d) ⟨t, {}⟩ := by
  have hnew : ∀ first ∈ done, first ≠ e := by
    rintro first hfirst rfl
    have hnodup := (placedIn_nodup t).of_map
    rw [hsplit, List.nodup_append] at hnodup
    exact hnodup.2.2 first hfirst first List.mem_cons_self rfl
  have hbefore : (placedIn t).takeWhile (· ≠ e) = done := by
    rw [hsplit, List.takeWhile_append_of_pos (by simpa using hnew)]
    simp
  rw [turn, hbefore]

theorem resolve_nesting (hd : d.Rooted) (hf : d.Followable o) (hb : ModelTree.Built d o t) :
    Meets (resolve d t) (fun p => Nesting d t (placedIn t) p ∧ Resolving d o t p)
      fun _ => True := by
  have hfirst : Nesting d t [] ⟨t, {}⟩ :=
    ⟨rfl, by simp, fun index => by simp [placeAfter]⟩
  unfold resolve
  refine Meets.foldlM (fun done p => Nesting d t done p ∧ Resolving d o t p)
    ⟨hfirst, hb, .refl, rfl, .empty t⟩ ?_
  rintro done ⟨index, id⟩ rest p hsplit ⟨hnesting, h⟩
  have hplaced : (index, id) ∈ placedIn t := by simp [hsplit]
  obtain ⟨u, hu, hk, rfl⟩ := mem_placedIn.1 hplaced
  have hturn : turn d t (index, u.id) = .ok p := (turn_of_split hsplit).trans hnesting.resolved
  have hmeets := resolveOne_meets hd hf h (ModelTree.getElem?_labels_of_node? hu) hk
  cases hone : resolveOne d p (index, u.id) with
  | error e => trivial
  | ok p' =>
    have hung := (resolveOne_hung hd hf hb.sound h hu hk).of_ok hone
    exact ⟨hnesting.next hturn hone hung, (hmeets.of_ok hone).1⟩

theorem resolve_nests {r : Reachability} {text : String} {l : Options} {complaints : List String}
    (hload : Document.load text l = .ok (d, complaints)) (hr : d.reachable o = .ok r)
    (ht : ModelTree.build d r = .ok t) (hp : resolve d t = .ok p) : NestedExactly d t p := by
  have hd := Document.rooted_of_load hload
  have hf := ((Document.reachable_meets hd o).of_ok hr).followable
  obtain ⟨hb, _⟩ := ModelTree.built_of_build hd hr ht
  obtain ⟨hnesting, h⟩ := (resolve_nesting hd hf hb).of_ok hp
  refine ⟨h.labels, fun e he => ?_, hnesting.parents, fun index hroot e he hlists => ?_⟩
  · obtain ⟨q, hq, _⟩ := hnesting.turns e he
    exact ⟨q, hq⟩
  · obtain ⟨q, hq, hkept⟩ := hnesting.turns e he
    have hunclaimed := (placeAfter_eq_none.1 ((hnesting.parents index).symm.trans hroot)).2 e he
    rw [claims_iff hq, not_and, not_not] at hunclaimed
    exact (hunclaimed hlists).mono hkept

def entangled : String :=
  "\x7bopenapi: '3.1', info: \x7b\x7d, components: \x7bschemas: \x7b" ++
    "U: \x7boneOf: [\x7b$ref: '#/components/schemas/V'\x7d, " ++
      "\x7b$ref: '#/components/schemas/A'\x7d]\x7d, " ++
    "V: \x7boneOf: [\x7b$ref: '#/components/schemas/U'\x7d, " ++
      "\x7b$ref: '#/components/schemas/A'\x7d]\x7d, " ++
    "A: \x7bproperties: \x7b\x7d\x7d\x7d\x7d\x7d"

theorem resolve_nests_entangled : ∃ d r t p, Document.load entangled {} = .ok (d, []) ∧
    d.reachable Document.keepAll = .ok r ∧ ModelTree.build d r = .ok t ∧ resolve d t = .ok p ∧
      t.roots = [0, 1, 2] ∧ p.tree.roots = [0] ∧ placedIn t = [(0, 0), (1, 3)] ∧
        NestedExactly d t p := by
  have hcheck : ((Document.load entangled {}).toOption.any fun x => x.2.isEmpty &&
      (x.1.reachable Document.keepAll).toOption.any fun r =>
        (ModelTree.build x.1 r).toOption.any fun t => (resolve x.1 t).toOption.any fun p =>
          decide (t.roots = [0, 1, 2] ∧ p.tree.roots = [0] ∧
            placedIn t = [(0, 0), (1, 3)])) = true := by
    decide +kernel
  obtain ⟨⟨d, complaints⟩, hload, hrest⟩ := ok_of_any hcheck
  obtain ⟨hnone, hreached⟩ := Bool.and_eq_true_iff.1 hrest
  obtain ⟨r, hr, hbuilt⟩ := ok_of_any hreached
  obtain ⟨t, ht, hresolved⟩ := ok_of_any hbuilt
  obtain ⟨p, hp, hfacts⟩ := ok_of_any hresolved
  obtain ⟨hroots, hroots', hplaced⟩ := of_decide_eq_true hfacts
  obtain rfl : complaints = [] := List.isEmpty_iff.1 hnone
  exact ⟨d, r, t, p, hload, hr, ht, hp, hroots, hroots', hplaced, resolve_nests hload hr ht hp⟩

end Unions

end ApiModel
