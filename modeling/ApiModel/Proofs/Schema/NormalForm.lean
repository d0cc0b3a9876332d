import ApiModel.Proofs.Schema.Frame

namespace ApiModel

theorem Json.isString_iff {text : String} {j : Json} :
    isString text j = true ↔ j = .string text := by
  cases j with
  | string s => simp [isString, string?]
  | null | bool _ | number _ | array _ | object _ => simp [isString, string?]

theorem RawSchema.typesWithNull_iff {m : RawSchema} : m.typesWithNull = true ↔
    ∃ types, m.get? "type" = some (.array types) ∧ .string "null" ∈ types := by
  have hany (types : List Json) :
      types.any (Json.isString "null") = true ↔ .string "null" ∈ types := by
    simp [List.any_eq_true, Json.isString_iff]
  unfold typesWithNull
  split
  · next types htypes =>
    rw [hany, htypes]
    simp
  · next hother =>
    simp only [Bool.false_eq_true, false_iff]
    rintro ⟨types, htypes, _⟩
    exact hother types htypes

namespace Json

inductive Alike : Json → Json → Prop
  | null : Alike .null .null
  | bool (b : Bool) : Alike (.bool b) (.bool b)
  | number (n : Number) : Alike (.number n) (.number n)
  | string (text : String) : Alike (.string text) (.string text)
  | array {items items' : List Json} :
      (∀ place : Nat, Option.Rel Alike items[place]? items'[place]?) →
        Alike (.array items) (.array items')
  | object {m m' : RawSchema} : (∀ key, Option.Rel Alike (m.get? key) (m'.get? key)) →
      Alike (.object m) (.object m')

theorem sizeOf_get? {m : RawSchema} {key : String} {j : Json} (h : m.get? key = some j) :
    sizeOf j < sizeOf m := by
  have hmem := List.sizeOf_lt_of_mem (OrderedMap.mem_of_get? h)
  simp only [Prod.mk.sizeOf_spec] at hmem
  omega

namespace Alike

variable {j j' : Json}

theorem optionRefl {o : Option Json} (h : ∀ j ∈ o, Alike j j) : Option.Rel Alike o o := by
  cases o with
  | none => exact .none
  | some j => exact .some (h j rfl)

theorem optionBind {o o' : Option Json} {f : Json → Option Json} (h : Option.Rel Alike o o')
    (hf : ∀ {j j'}, Alike j j' → Option.Rel Alike (f j) (f j')) :
    Option.Rel Alike (o.bind f) (o'.bind f) := by
  cases h with
  | none => exact .none
  | some h => exact hf h

theorem refl (j : Json) : j.Alike j := by
  match j with
  | .null => exact .null
  | .bool b => exact .bool b
  | .number n => exact .number n
  | .string text => exact .string text
  | .array items =>
    refine .array fun place => optionRefl fun item hitem => ?_
    have := List.sizeOf_lt_of_mem (List.mem_of_getElem? hitem)
    exact refl item
  | .object m =>
    refine .object fun key => optionRefl fun value hvalue => ?_
    have := sizeOf_get? hvalue
    exact refl value
termination_by sizeOf j

theorem get? (h : j.Alike j') (key : String) :
    Option.Rel Alike (j.get? key) (j'.get? key) := by
  cases h with
  | object h => exact h key
  | null | bool _ | number _ | string _ | array _ => exact .none

theorem pick? (h : j.Alike j') (slot : Slot) :
    Option.Rel Alike (slot.pick? j) (slot.pick? j') := by
  have hmembers (place : Nat) : Option.Rel Alike (j.items?.bind fun members => members[place]?)
      (j'.items?.bind fun members => members[place]?) := by
    cases h with
    | array h => exact h place
    | null | bool _ | number _ | string _ | object _ => exact .none
  cases slot with
  | items | not => exact .some h
  | values =>
    cases h with
    | object h => exact .some (.object h)
    | null | bool _ | number _ | string _ | array _ => exact .none
  | property name => exact h.get? name
  | allOf place | anyOf place | oneOf place => exact hmembers place

theorem schemaIn? (h : j.Alike j') (slot : Slot) :
    Option.Rel Alike (j.schemaIn? slot) (j'.schemaIn? slot) :=
  optionBind (h.get? slot.keyword) fun hvalue => hvalue.pick? slot

theorem schemaAt? (h : j.Alike j') (path : List Slot) :
    Option.Rel Alike (j.schemaAt? path) (j'.schemaAt? path) := by
  induction path generalizing j j' with
  | nil => exact .some h
  | cons slot path ih => exact optionBind (h.schemaIn? slot) ih

end Alike

structure Folded (j : Json) : Prop where
  schema : ∀ b, j ≠ .bool b
  constant : j.get? "const" = none
  nullable : ∀ types, j.get? "type" = some (.array types) → .string "null" ∈ types →
    j.get? "nullable" ≠ none

def GivesWay (j : Json) : Prop :=
  ∃ m reference kept dropped, j = .object m ∧ RawSchema.Collapses m reference kept dropped

def InNormalForm (j : Json) : Prop :=
  ∀ path s, j.schemaAt? path = some s → s.Folded ∧ ¬s.GivesWay

variable {m : RawSchema} {j s : Json} {slot : Slot} {path : List Slot}

theorem givesWay_object : (Json.object m).GivesWay ↔ m.nullableReference? ≠ none := by
  rw [Option.ne_none_iff_exists']
  simp only [RawSchema.nullableReference?_eq_some]
  constructor
  · rintro ⟨_, reference, kept, dropped, heq, h⟩
    cases heq
    exact ⟨reference, kept, dropped, h⟩
  · rintro ⟨reference, kept, dropped, h⟩
    exact ⟨m, reference, kept, dropped, rfl, h⟩

theorem nullableReference?_of_whole (h : ¬(Json.object m).GivesWay) :
    m.nullableReference? = none := by
  by_contra hsome
  exact h (givesWay_object.2 hsome)

theorem InNormalForm.schemaIn? (h : j.InNormalForm) (hs : j.schemaIn? slot = some s) :
    s.InNormalForm := by
  intro path t ht
  refine h (slot :: path) t ?_
  rw [schemaAt?, hs]
  exact ht

theorem sizeOf_pick? (h : slot.pick? j = some s) : sizeOf s ≤ sizeOf j := by
  rcases pick?_eq_some h with rfl | ⟨key, hkey⟩ | ⟨members, rfl, hmem⟩
  · exact Nat.le_refl _
  · obtain ⟨m, rfl, hget⟩ := get?_eq_some.1 hkey
    have hlt : sizeOf s < sizeOf m := sizeOf_get? hget
    simp only [object.sizeOf_spec]
    omega
  · have hlt := List.sizeOf_lt_of_mem hmem
    simp only [array.sizeOf_spec]
    omega

theorem sizeOf_schemaIn? (h : j.schemaIn? slot = some s) : sizeOf s < sizeOf j := by
  obtain ⟨m, rfl⟩ := schemaIn?_eq_some h
  obtain ⟨value, hvalue, hs⟩ := Option.bind_eq_some_iff.1 h
  have hlt : sizeOf value < sizeOf m := sizeOf_get? hvalue
  have hle := sizeOf_pick? hs
  simp only [object.sizeOf_spec]
  omega

theorem normalizeMembers_of_fixed (h : ∀ members, j = .array members →
    ∀ s ∈ members, s.normalize = s) : normalizeMembers j = j := by
  cases j with
  | array members =>
    rw [normalizeMembers, normalizeItems_eq_map]
    exact congrArg array ((List.map_congr_left (h members rfl)).trans (List.map_id members))
  | null | bool _ | number _ | string _ | object _ => rfl

theorem normalizeValues_of_fixed (h : ∀ entries, j = .object entries →
    ∀ e ∈ entries, e.2.normalize = e.2) : normalizeValues j = j := by
  cases j with
  | object entries =>
    have hentries : ∀ e ∈ entries, (e.1, e.2.normalize) = id e :=
      fun e he => Prod.ext rfl (h entries rfl e he)
    rw [normalizeValues, normalizeEach_eq_map]
    exact congrArg object ((List.map_congr_left hentries).trans (List.map_id entries))
  | null | bool _ | number _ | string _ | array _ => rfl

theorem normalizeUnder_of_fixed {key : String} (h : j.Distinct)
    (hfixed : ∀ slot s, Slot.keyword slot = key → slot.pick? j = some s → s.normalize = s) :
    normalizeUnder key j = j := by
  have hmembers (slot : Nat → Slot) (hkeyword : ∀ place, (slot place).keyword = key)
      (hpick : ∀ place, (slot place).pick? j = j.items?.bind fun members => members[place]?) :
      normalizeMembers j = j := by
    refine normalizeMembers_of_fixed fun members hj s hs => ?_
    subst hj
    obtain ⟨place, hplace⟩ := List.getElem?_of_mem hs
    exact hfixed (slot place) s (hkeyword place) ((hpick place).trans hplace)
  unfold normalizeUnder
  split
  · exact hfixed .items j rfl rfl
  · exact hfixed .not j rfl rfl
  · split
    · next hobject => exact hfixed .values j rfl (if_pos hobject)
    · rfl
  · refine normalizeValues_of_fixed fun entries hj e he => ?_
    subst hj
    exact hfixed (.property e.1) e.2 rfl (OrderedMap.get?_of_mem (Distinct.object_iff.1 h).1 he)
  · exact hmembers .allOf (fun _ => rfl) fun _ => rfl
  · exact hmembers .anyOf (fun _ => rfl) fun _ => rfl
  · exact hmembers .oneOf (fun _ => rfl) fun _ => rfl
  · rfl

theorem normalize_of_fixed (h : (Json.object m).Distinct) (hfolded : (Json.object m).Folded)
    (hchoice : ¬(Json.object m).GivesWay)
    (hfixed : ∀ slot s, (Json.object m).schemaIn? slot = some s → s.normalize = s) :
    (Json.object m).normalize = .object m := by
  obtain ⟨hkeys, hvalues⟩ := Distinct.object_iff.1 h
  have hentries : normalizeEntries m = m := by
    have hentry : ∀ e ∈ m, (e.1, normalizeUnder e.1 e.2) = id e := by
      intro e he
      refine Prod.ext rfl (normalizeUnder_of_fixed (hvalues e he) fun slot s hslot hs => ?_)
      have hvalue : m.get? slot.keyword = some e.2 := by
        rw [hslot]
        exact OrderedMap.get?_of_mem hkeys he
      exact hfixed slot s (Option.bind_eq_some_iff.2 ⟨e.2, hvalue, hs⟩)
    rw [normalizeEntries_eq_map]
    exact (List.map_congr_left hentry).trans (List.map_id m)
  have hconstant : m.foldConstant = m := by
    have hnone : m.get? "const" = none := hfolded.constant
    rw [RawSchema.foldConstant, hnone]
  have hnullable : m.markNullable = m := by
    unfold RawSchema.markNullable
    split
    · next hnull =>
      obtain ⟨types, htypes, hmem⟩ := RawSchema.typesWithNull_iff.1 hnull
      obtain ⟨value, hvalue⟩ := Option.ne_none_iff_exists'.1 (hfolded.nullable types htypes hmem)
      have hcontains : OrderedMap.contains m "nullable" = true := by
        rw [OrderedMap.contains]
        exact Option.isSome_iff_exists.2 ⟨value, hvalue⟩
      exact if_pos hcontains
    · rfl
  have hnone := nullableReference?_of_whole hchoice
  have hsettled : m.settled = m := by
    rw [RawSchema.settled, hentries, hconstant, hnullable]
  rw [normalize_object, hsettled, hnone]
  rfl

theorem InNormalForm.normalize {j : Json} (h : j.Distinct) (hnormal : j.InNormalForm) :
    j.normalize = j := by
  match j with
  | .object m =>
    obtain ⟨hfolded, hchoice⟩ := hnormal [] (.object m) rfl
    exact normalize_of_fixed h hfolded hchoice fun slot s hs =>
      InNormalForm.normalize (h.schemaIn? hs) (hnormal.schemaIn? hs)
  | .bool b => exact absurd rfl ((hnormal [] (.bool b) rfl).1.schema b)
  | .null | .number _ | .string _ | .array _ => rfl
termination_by sizeOf j
decreasing_by exact sizeOf_schemaIn? hs

end Json

end ApiModel
