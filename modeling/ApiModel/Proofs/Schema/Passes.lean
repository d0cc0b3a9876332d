import ApiModel.Proofs.Schema.NormalForm
/-!
How far one pass brings a raw schema. Nothing but choices is left to rewrite after it, and of these
exactly the ones that wait for a choice inside them; further passes reach the normal form.
-/

namespace ApiModel

theorem RawSchema.nullable_of_typesWithNull {m : RawSchema}
    (h : m.markNullable.typesWithNull = true) : m.markNullable.get? "nullable" ≠ none := by
  have hwritten : m.typesWithNull = true := by
    obtain ⟨types, htypes, hmem⟩ := typesWithNull_iff.1 h
    rw [get?_markNullable (by decide)] at htypes
    exact typesWithNull_iff.2 ⟨types, htypes, hmem⟩
  rw [get?_markNullable_nullable, if_pos hwritten]
  cases m.get? "nullable" <;> simp

namespace Json

variable {m : RawSchema} {j s : Json} {slot : Slot} {path : List Slot}

theorem folded_of_not_object (hbool : ∀ b, j ≠ .bool b) (hobject : ∀ m, j ≠ .object m) :
    j.Folded := by
  have hnone (key : String) : j.get? key = none := by
    cases j with
    | object m => exact absurd rfl (hobject m)
    | null | bool _ | number _ | string _ | array _ => rfl
  refine ⟨hbool, hnone "const", fun types htypes => ?_⟩
  rw [hnone] at htypes
  cases htypes

theorem folded_object (hconstant : m.get? "const" = none)
    (hnullable : m.typesWithNull = true → m.get? "nullable" ≠ none) : (Json.object m).Folded where
  schema b hb := by cases hb
  constant := hconstant
  nullable types htypes hmem := hnullable (RawSchema.typesWithNull_iff.2 ⟨types, htypes, hmem⟩)

theorem folded_normalize (h : j.Distinct) : j.normalize.Folded := by
  cases j with
  | object m =>
    have hkeys := (Distinct.object_iff.1 h).1
    have hconstant : (Json.object m).normalize.get? "const" = none := by
      rw [get?_normalize_of_ne h (by decide), RawSchema.get?_settled_const hkeys]
    rw [normalize_object] at hconstant ⊢
    refine folded_object hconstant fun hnull => ?_
    cases hreference : RawSchema.nullableReference? m with
    | none =>
      rw [hreference] at hnull
      exact RawSchema.nullable_of_typesWithNull hnull
    | some reference =>
      rw [RawSchema.get?_collapseReference (RawSchema.nodup_keys_settled h), if_pos rfl]
      exact Option.some_ne_none _
  | bool b => cases b <;> exact folded_object rfl fun hnull => by cases hnull
  | null | number _ | string _ | array _ =>
    exact folded_of_not_object (fun b hb => by cases hb) (fun m hm => by cases hm)

theorem inferredType?_ne_null (j : Json) : j.inferredType? ≠ some "null" := by
  unfold inferredType?
  split <;> simp

theorem admitsNull_normalize (h : j.Distinct) : j.normalize.admitsNull = j.admitsNull := by
  cases j with
  | object m =>
    have htype : (Json.object m).normalize.get? "type" = RawSchema.type? m := by
      rw [get?_normalize_of_ne h (by decide),
        RawSchema.get?_settled_type (Distinct.object_iff.1 h).1]
    have hwritten : (Json.object m).get? "type" = OrderedMap.get? m "type" := rfl
    rw [admitsNull, admitsNull, htype, hwritten, RawSchema.type?]
    cases OrderedMap.get? m "type" with
    | some type => rfl
    | none =>
      cases hinferred : (OrderedMap.get? m "const").bind inferredType? with
      | none => rfl
      | some type =>
        obtain ⟨constant, -, hconstant⟩ := Option.bind_eq_some_iff.1 hinferred
        have hne : type ≠ "null" := by
          rintro rfl
          exact inferredType?_ne_null constant hconstant
        simp [hne]
  | bool b => cases b <;> rfl
  | null | number _ | string _ | array _ => rfl

theorem givesWay_iff : j.GivesWay ↔ ∃ first second,
    j.get? "anyOf" = some (.array [first, second]) ∧
    (first.reference? ≠ none ∨ second.reference? ≠ none) ∧
    (first.admitsNull = true ∨ second.admitsNull = true) := by
  constructor
  · rintro ⟨m, reference, kept, dropped, rfl, hmembers | ⟨hmembers, -⟩, hreference, hnull⟩
    · exact ⟨kept, dropped, hmembers, .inl (by simp [hreference]), hnull⟩
    · exact ⟨dropped, kept, hmembers, .inr (by simp [hreference]), hnull.symm⟩
  · rintro ⟨first, second, hmembers, hreference, hnull⟩
    obtain ⟨m, rfl, hmembers⟩ := get?_eq_some.1 hmembers
    cases hfirst : first.reference? with
    | some reference => exact ⟨m, reference, first, second, rfl, .inl hmembers, hfirst, hnull⟩
    | none =>
      obtain ⟨reference, hsecond⟩ :=
        Option.ne_none_iff_exists'.1 (hreference.resolve_left (absurd hfirst))
      exact ⟨m, reference, second, first, rfl, .inr ⟨hmembers, hfirst⟩, hsecond, hnull.symm⟩

theorem normalizeMembers_eq_pair {o : Option Json} {first' second' : Json}
    (h : o.map normalizeMembers = some (.array [first', second'])) : ∃ first second,
      o = some (.array [first, second]) ∧ first.normalize = first' ∧ second.normalize = second' := by
  obtain ⟨value, rfl, hvalue⟩ := Option.map_eq_some_iff.1 h
  cases value with
  | array members =>
    rw [normalizeMembers, normalizeItems_eq_map] at hvalue
    obtain ⟨first, second, rfl, hfirst, hsecond⟩ :
        ∃ first second, members = [first, second] ∧ first.normalize = first' ∧
          second.normalize = second' := by
      simpa [List.map_eq_cons_iff, and_assoc, eq_comm] using Json.array.inj hvalue
    exact ⟨first, second, rfl, hfirst, hsecond⟩
  | null | bool _ | number _ | string _ | object _ => cases hvalue

theorem get?_normalize_anyOf (h : j.Distinct) (hwhole : ¬j.GivesWay) :
    j.normalize.get? "anyOf" = (j.get? "anyOf").map normalizeMembers := by
  cases j with
  | object m =>
    exact get?_normalize_of_kept h (nullableReference?_of_whole hwhole) (by decide)
  | bool b => cases b <;> rfl
  | null | number _ | string _ | array _ => rfl

theorem reference?_normalize_of_whole (h : j.Distinct) (hwhole : ¬j.GivesWay) :
    j.normalize.reference? = j.reference? := by
  cases j with
  | object m =>
    have hnone := nullableReference?_of_whole hwhole
    have hvalue : (Json.object m).normalize.get? "$ref" = OrderedMap.get? m "$ref" := by
      rw [get?_normalize_of_kept h hnone (by decide)]
      cases OrderedMap.get? m "$ref" <;> rfl
    rw [reference?, hvalue]
    rfl
  | bool b => cases b <;> rfl
  | null | number _ | string _ | array _ => rfl

theorem reference?_normalize_ne_none (h : j.Distinct) :
    j.normalize.reference? ≠ none ↔ j.reference? ≠ none ∨ j.GivesWay := by
  by_cases hchoice : j.GivesWay
  · obtain ⟨m, reference, kept, dropped, rfl, hcollapses⟩ := hchoice
    have hsome := RawSchema.nullableReference?_eq_some.2 ⟨kept, dropped, hcollapses⟩
    have hvalue : (Json.object m).normalize.get? "$ref" = some (.string reference) :=
      get?_normalize_of_collapsed h hsome "$ref"
    have hreference : (Json.object m).normalize.reference? = some reference := by
      rw [reference?, hvalue]
      rfl
    have hchoice : (Json.object m).GivesWay := ⟨m, reference, kept, dropped, rfl, hcollapses⟩
    simp [hreference, hchoice]
  · rw [reference?_normalize_of_whole h hchoice]
    simp [hchoice]

/-- A choice that would give way if the choice that is one of its members had done so before. -/
def Defers (j : Json) : Prop :=
  ∃ first second, j.get? "anyOf" = some (.array [first, second]) ∧
    first.reference? = none ∧ second.reference? = none ∧
    (first.admitsNull = true ∨ second.admitsNull = true) ∧ (first.GivesWay ∨ second.GivesWay)

theorem Distinct.members (h : j.Distinct) {key : String} {members : List Json}
    (hmembers : j.get? key = some (.array members)) : ∀ s ∈ members, s.Distinct := by
  obtain ⟨m, rfl, hvalue⟩ := Json.get?_eq_some.1 hmembers
  cases h.get? hvalue with
  | array hall => exact hall

theorem Defers.whole (h : j.Defers) : ¬j.GivesWay := by
  obtain ⟨first, second, hmembers, hfirst, hsecond, -⟩ := h
  intro hgives
  obtain ⟨first', second', hpair, hreference, -⟩ := givesWay_iff.1 hgives
  rw [hmembers] at hpair
  cases hpair
  exact hreference.elim (absurd hfirst) (absurd hsecond)

theorem whole_of_givesWay_normalize (h : j.Distinct) (hagain : j.normalize.GivesWay) :
    ¬j.GivesWay := by
  rintro ⟨m, reference, kept, dropped, rfl, hcollapses⟩
  have hsome := RawSchema.nullableReference?_eq_some.2 ⟨kept, dropped, hcollapses⟩
  obtain ⟨first, second, hpair, -⟩ := givesWay_iff.1 hagain
  rw [get?_normalize_of_collapsed h hsome] at hpair
  cases hpair

theorem givesWay_normalize (h : j.Distinct) : j.normalize.GivesWay ↔ j.Defers := by
  constructor
  · intro hagain
    have hwhole := whole_of_givesWay_normalize h hagain
    obtain ⟨first', second', hpair, hreference, hnull⟩ := givesWay_iff.1 hagain
    rw [get?_normalize_anyOf h hwhole] at hpair
    obtain ⟨first, second, hmembers, rfl, rfl⟩ := normalizeMembers_eq_pair hpair
    obtain ⟨hfirst, hsecond⟩ : first.Distinct ∧ second.Distinct := by
      simpa using h.members hmembers
    rw [reference?_normalize_ne_none hfirst, reference?_normalize_ne_none hsecond] at hreference
    rw [admitsNull_normalize hfirst, admitsNull_normalize hsecond] at hnull
    -- with a reference among its members as written the choice would have given way at once
    have hnone : first.reference? = none ∧ second.reference? = none := by
      by_contra hsome
      refine hwhole (givesWay_iff.2 ⟨first, second, hmembers, ?_, hnull⟩)
      rwa [not_and_or] at hsome
    refine ⟨first, second, hmembers, hnone.1, hnone.2, hnull, ?_⟩
    exact hreference.imp (·.resolve_left (absurd hnone.1)) (·.resolve_left (absurd hnone.2))
  · intro hdefers
    have hwhole := hdefers.whole
    obtain ⟨first, second, hmembers, -, -, hnull, hchoice⟩ := hdefers
    obtain ⟨hfirst, hsecond⟩ : first.Distinct ∧ second.Distinct := by
      simpa using h.members hmembers
    refine givesWay_iff.2 ⟨first.normalize, second.normalize, ?_, ?_, ?_⟩
    · rw [get?_normalize_anyOf h hwhole, hmembers]
      rfl
    · rw [reference?_normalize_ne_none hfirst, reference?_normalize_ne_none hsecond]
      exact hchoice.imp .inr .inr
    · rwa [admitsNull_normalize hfirst, admitsNull_normalize hsecond]

theorem folded_empty : (Json.object []).Folded := folded_object rfl fun hnull => by cases hnull

theorem not_givesWay_empty : ¬(Json.object []).GivesWay := by
  rw [givesWay_iff]
  rintro ⟨first, second, hmembers, -⟩
  cases hmembers

theorem schemaIn?_of_normalize (h : j.Distinct) (hs : j.normalize.schemaIn? slot = some s) :
    s = .object [] ∨
      ∃ t, j.schemaIn? slot = some t ∧ t.normalize = s ∧
        ∀ path, j.Hidden (slot :: path) → t.Hidden path := by
  cases j with
  | object m =>
    have hslot : RawSchema.nullableReference? m = none ∨ slot.keyword ≠ "anyOf" := by
      by_contra hboth
      obtain ⟨hsome, hany⟩ := not_or.1 hboth
      obtain ⟨reference, hsome⟩ := Option.ne_none_iff_exists'.1 hsome
      obtain ⟨place, rfl⟩ := eq_anyOf_of_keyword (not_not.1 hany)
      rw [schemaIn?_normalize_anyOf h hsome] at hs
      cases hs
    rw [schemaIn?_normalize h hslot] at hs
    obtain ⟨t, ht, rfl⟩ := Option.map_eq_some_iff.1 hs
    refine .inr ⟨t, ht, rfl, fun path hhidden => ?_⟩
    cases hhidden with
    | choice place path hcollapses =>
      have hsome := RawSchema.nullableReference?_eq_some.2 ⟨_, _, hcollapses⟩
      simp [hsome, Slot.keyword] at hslot
    | inside ht' hinside =>
      rw [ht] at ht'
      cases ht'
      exact hinside
  | bool b =>
    cases b with
    | true => cases hs
    | false =>
      cases slot with
      | not =>
        cases hs
        exact .inl rfl
      | items | values | property _ | allOf _ | anyOf _ | oneOf _ => cases hs
  | null | number _ | string _ | array _ => cases hs

theorem schemaAt?_of_normalize (h : j.Distinct) (hs : j.normalize.schemaAt? path = some s) :
    s = .object [] ∨ ∃ t, j.schemaAt? path = some t ∧ ¬j.Hidden path ∧ t.normalize = s := by
  induction path generalizing j with
  | nil =>
    cases hs
    exact .inr ⟨j, rfl, (by rintro ⟨⟩), rfl⟩
  | cons slot path ih =>
    obtain ⟨s', hs', hpath⟩ := Option.bind_eq_some_iff.1 hs
    rcases schemaIn?_of_normalize h hs' with rfl | ⟨t, ht, rfl, hopen⟩
    · cases path with
      | nil =>
        cases hpath
        exact .inl rfl
      | cons _ _ => cases hpath
    · rcases ih (h.schemaIn? ht) hpath with hempty | ⟨u, hu, hinside, rfl⟩
      · exact .inl hempty
      · refine .inr ⟨u, ?_, fun hhidden => hinside (hopen path hhidden), rfl⟩
        rw [schemaAt?, ht]
        exact hu

theorem schemaAt?_append {path' : List Slot} (hs : j.schemaAt? path = some s) :
    j.schemaAt? (path ++ path') = s.schemaAt? path' := by
  induction path generalizing j with
  | nil =>
    cases hs
    rfl
  | cons slot path ih =>
    obtain ⟨t, ht, hs⟩ := Option.bind_eq_some_iff.1 hs
    rw [List.cons_append, schemaAt?, ht]
    exact ih hs

theorem Hidden.append {path' : List Slot} (hs : j.schemaAt? path = some s)
    (h : s.Hidden path') : j.Hidden (path ++ path') := by
  induction path generalizing j with
  | nil =>
    cases hs
    exact h
  | cons slot path ih =>
    obtain ⟨t, ht, hs⟩ := Option.bind_eq_some_iff.1 hs
    exact .inside ht (ih hs)

theorem schemaIn?_anyOf {members : List Json} {place : Nat}
    (h : j.get? "anyOf" = some (.array members)) :
    j.schemaIn? (.anyOf place) = members[place]? := by
  rw [schemaIn?, Slot.keyword, h]
  rfl

theorem Distinct.iterate (h : j.Distinct) (passes : Nat) :
    (Json.normalize^[passes] j).Distinct := by
  induction passes with
  | zero => exact h
  | succ passes ih =>
    rw [Function.iterate_succ_apply']
    exact ih.normalize

def DefersAt (j : Json) (path : List Slot) : Prop :=
  ∃ s, j.schemaAt? path = some s ∧ ¬j.Hidden path ∧ s.Defers

theorem givesWay_normalize_at (h : j.Distinct) (hs : j.normalize.schemaAt? path = some s) :
    s.GivesWay ↔ j.DefersAt path := by
  constructor
  · intro hchoice
    rcases schemaAt?_of_normalize h hs with rfl | ⟨t, ht, hopen, rfl⟩
    · exact absurd hchoice not_givesWay_empty
    · exact ⟨t, ht, hopen, (givesWay_normalize (h.schemaAt? ht)).1 hchoice⟩
  · rintro ⟨t, ht, hopen, hdefers⟩
    rw [schemaAt?_normalize h ht hopen] at hs
    cases hs
    exact (givesWay_normalize (h.schemaAt? ht)).2 hdefers

theorem folded_normalize_at (h : j.Distinct) (hs : j.normalize.schemaAt? path = some s) :
    s.Folded := by
  rcases schemaAt?_of_normalize h hs with rfl | ⟨t, ht, -, rfl⟩
  · exact folded_empty
  · exact folded_normalize (h.schemaAt? ht)

theorem inNormalForm_normalize (h : j.Distinct) :
    j.normalize.InNormalForm ↔ ∀ path, ¬j.DefersAt path := by
  constructor
  · rintro hnormal path ⟨s, hs, hopen, hdefers⟩
    have hplace := schemaAt?_normalize h hs hopen
    exact (hnormal path _ hplace).2 ((givesWay_normalize_at h hplace).2 ⟨s, hs, hopen, hdefers⟩)
  · exact fun hnone path s hs =>
      ⟨folded_normalize_at h hs, fun hchoice => hnone path ((givesWay_normalize_at h hs).1 hchoice)⟩

theorem inNormalForm_of_alike (h : j.Distinct) (hfolded : ∀ path s, j.schemaAt? path = some s →
    s.Folded) (hsame : j.normalize.Alike j) : j.InNormalForm := by
  refine fun path s hs => ⟨hfolded path s hs, fun hchoice => ?_⟩
  obtain ⟨first, second, hmembers, -, -⟩ := givesWay_iff.1 hchoice
  obtain ⟨m, reference, kept, dropped, rfl, hcollapses⟩ := hchoice
  have hplace : j.schemaAt? (path ++ [.anyOf 0]) = some first := by
    rw [schemaAt?_append hs, schemaAt?, schemaIn?_anyOf hmembers]
    rfl
  have hlost : j.normalize.schemaAt? (path ++ [.anyOf 0]) = none :=
    schemaAt?_normalize_of_hidden h (.append hs (.choice 0 [] hcollapses))
  have hrel := hsame.schemaAt? (path ++ [.anyOf 0])
  rw [hlost, hplace] at hrel
  cases hrel

theorem schemaIn?_iterate (h : j.Distinct) (passes : Nat)
    (hs : (normalize^[passes] j).schemaIn? slot = some s) :
    s = .object [] ∨ ∃ t, j.schemaIn? slot = some t ∧ normalize^[passes] t = s := by
  induction passes generalizing s with
  | zero => exact .inr ⟨s, hs, rfl⟩
  | succ passes ih =>
    rw [Function.iterate_succ_apply'] at hs
    rcases schemaIn?_of_normalize (h.iterate passes) hs with rfl | ⟨t, ht, rfl, -⟩
    · exact .inl rfl
    · rcases ih ht with rfl | ⟨u, hu, rfl⟩
      · exact .inl rfl
      · exact .inr ⟨u, hu, Function.iterate_succ_apply' normalize passes u⟩

theorem inNormalForm_of_inside (hfolded : j.Folded) (hchoice : ¬j.GivesWay)
    (hinside : ∀ slot s, j.schemaIn? slot = some s → s.InNormalForm) : j.InNormalForm := by
  intro path s hs
  cases path with
  | nil =>
    cases hs
    exact ⟨hfolded, hchoice⟩
  | cons slot path =>
    obtain ⟨t, ht, hs⟩ := Option.bind_eq_some_iff.1 hs
    exact hinside slot t ht path s hs

theorem inNormalForm_empty : (Json.object []).InNormalForm :=
  inNormalForm_of_inside folded_empty not_givesWay_empty fun slot s hs => by cases hs

theorem inNormalForm_normalize_of_inside (h : j.Distinct)
    (hinside : ∀ slot s, j.schemaIn? slot = some s → s.InNormalForm) :
    j.normalize.InNormalForm := by
  refine inNormalForm_of_inside (folded_normalize h) ?_ fun slot s hs => ?_
  · rw [givesWay_normalize h]
    rintro ⟨first, second, hmembers, -, -, -, hchoice | hchoice⟩
    · exact (hinside (.anyOf 0) first (schemaIn?_anyOf hmembers) [] first rfl).2 hchoice
    · exact (hinside (.anyOf 1) second (schemaIn?_anyOf hmembers) [] second rfl).2 hchoice
  · rcases schemaIn?_of_normalize h hs with rfl | ⟨t, ht, rfl, -⟩
    · exact inNormalForm_empty
    · rw [(hinside slot t ht).normalize (h.schemaIn? ht)]
      exact hinside slot t ht

theorem inNormalForm_iterate (h : j.Distinct) {passes : Nat} (hsize : sizeOf j ≤ passes) :
    (normalize^[passes] j).InNormalForm := by
  -- a schema inside another needs at least one pass less
  induction passes generalizing j with
  | zero => cases j <;> simp at hsize
  | succ passes ih =>
    rw [Function.iterate_succ_apply']
    refine inNormalForm_normalize_of_inside (h.iterate passes) fun slot s hs => ?_
    rcases schemaIn?_iterate h passes hs with rfl | ⟨t, ht, rfl⟩
    · exact inNormalForm_empty
    · have hlt := sizeOf_schemaIn? ht
      exact ih (h.schemaIn? ht) (by omega)

/-- What a pass reaches. It leaves only choices to be rewritten, those whose members it had yet to
rewrite; without them the next pass changes nothing, and with them it always does. -/
structure PassExact (j : Json) : Prop where
  folded : ∀ path s, j.normalize.schemaAt? path = some s → s.Folded
  left : ∀ path s, j.normalize.schemaAt? path = some s → (s.GivesWay ↔ j.DefersAt path)
  settled : (∀ path, ¬j.DefersAt path) → j.normalize.normalize = j.normalize
  again : j.normalize.normalize.Alike j.normalize ↔ ∀ path, ¬j.DefersAt path
  reached : ∃ passes, (normalize^[passes] j).InNormalForm

theorem normalize_passes (h : j.Distinct) : j.PassExact := by
  have hsettled (hnone : ∀ path, ¬j.DefersAt path) : j.normalize.normalize = j.normalize :=
    ((inNormalForm_normalize h).2 hnone).normalize h.normalize
  refine ⟨fun _ _ => folded_normalize_at h, fun _ _ => givesWay_normalize_at h, hsettled,
    ⟨fun hsame => ?_, fun hnone => ?_⟩, sizeOf j, inNormalForm_iterate h (Nat.le_refl _)⟩
  · exact (inNormalForm_normalize h).1
      (inNormalForm_of_alike h.normalize (fun _ _ => folded_normalize_at h) hsame)
  · rw [hsettled hnone]
    exact .refl j.normalize

def petOrNullOrNull : Json :=
  .object [("anyOf", .array [.object petOrNull, .object [("type", .string "null")]])]

theorem petOrNullOrNull_distinct : petOrNullOrNull.Distinct := by
  have hnull : (Json.object [("type", .string "null")]).Distinct := .singleton "type" (.string _)
  exact .singleton "anyOf" (petOrNull_distinct.pair hnull)

theorem normalize_passes_pet : petOrNullOrNull.Distinct ∧ petOrNullOrNull.PassExact :=
  ⟨petOrNullOrNull_distinct, normalize_passes petOrNullOrNull_distinct⟩

theorem petOrNullOrNull_unsettled : petOrNullOrNull.Distinct ∧ petOrNullOrNull.normalize.GivesWay ∧
    ¬petOrNullOrNull.normalize.normalize.Alike petOrNullOrNull.normalize := by
  refine ⟨petOrNullOrNull_distinct, ?_, fun hsame => ?_⟩
  · exact givesWay_iff.2 ⟨(Json.object petOrNull).normalize, .object [("type", .string "null")],
      rfl, .inl (Option.some_ne_none "#/components/schemas/Pet"), .inr rfl⟩
  · have hlost : petOrNullOrNull.normalize.normalize.get? "anyOf" = none := rfl
    have hleft : petOrNullOrNull.normalize.get? "anyOf" = some (.array
        [(Json.object petOrNull).normalize, .object [("type", .string "null")]]) := rfl
    have hrel := hsame.get? "anyOf"
    rw [hlost, hleft] at hrel
    cases hrel

end Json

end ApiModel
