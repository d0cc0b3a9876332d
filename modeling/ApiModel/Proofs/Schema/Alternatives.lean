import ApiModel.Proofs.Schema.Decoded

namespace ApiModel

namespace OrderedMap

variable {α β : Type} [DecidableEq α] {m : OrderedMap α β} {key other : α}

theorem get?_insertNew_of_ne (m : OrderedMap α β) (value : β) (hne : other ≠ key) :
    (m.insertNew key value).get? other = m.get? other := by
  unfold insertNew
  split
  · rfl
  · exact get?_insert_of_ne m value hne

theorem get?_map_values {γ : Type} (f : α → β → γ) (m : OrderedMap α β) (key : α) :
    OrderedMap.get? (m.map fun e => (e.1, f e.1 e.2)) key = (m.get? key).map (f key) := by
  induction m with
  | nil => rfl
  | cons e m ih =>
    obtain ⟨k, value⟩ := e
    by_cases hk : k = key
    · subst hk
      simp [get?]
    · simp [get?, hk, ih]

end OrderedMap

namespace Slot

def keyword : Slot → String
  | .items => "items"
  | .values => "additionalProperties"
  | .property _ => "properties"
  | .allOf _ => "allOf"
  | .anyOf _ => "anyOf"
  | .oneOf _ => "oneOf"
  | .not => "not"

def pick? : Slot → Json → Option Json
  | .items, j | .not, j => some j
  | .values, j => if j.isObject then some j else none
  | .property name, j => j.get? name
  | .allOf place, j | .anyOf place, j | .oneOf place, j =>
      j.items?.bind fun members => members[place]?

end Slot

namespace Json

variable {m : RawSchema} {j s : Json} {slot : Slot} {path : List Slot}

def schemaIn? (j : Json) (slot : Slot) : Option Json := (j.get? slot.keyword).bind slot.pick?

def schemaAt? (j : Json) : List Slot → Option Json
  | [] => some j
  | slot :: path => (j.schemaIn? slot).bind fun s => s.schemaAt? path

def reference? (j : Json) : Option String := (j.get? "$ref").bind string?

def AdmitsOnlyNull (j : Json) : Prop :=
  j.get? "type" = some (.string "null") ∨
    ∃ types, j.get? "type" = some (.array types) ∧ types ≠ [] ∧
      ∀ type ∈ types, type.string? = some "null"

theorem AdmitsOnlyNull.admitsNull (h : j.AdmitsOnlyNull) : j.admitsNull = true := by
  rcases h with h | ⟨types, h, hne, hall⟩
  · simp [Json.admitsNull, h]
  · obtain ⟨type, rest, rfl⟩ := List.exists_cons_of_ne_nil hne
    have htype := hall type List.mem_cons_self
    simp [Json.admitsNull, h, isString, htype]

def normalizeUnder (key : String) (j : Json) : Json :=
  match key with
  | "items" | "not" => normalize j
  | "additionalProperties" => if j.isObject then normalize j else j
  | "properties" => normalizeValues j
  | "allOf" | "anyOf" | "oneOf" => normalizeMembers j
  | _ => j

theorem normalizeEntries_eq_map (m : RawSchema) :
    normalizeEntries m = m.map fun e => (e.1, normalizeUnder e.1 e.2) := by
  induction m with
  | nil => rfl
  | cons e m ih =>
    unfold normalizeEntries
    rw [ih]
    rfl

theorem get?_normalizeEntries (m : RawSchema) (key : String) :
    OrderedMap.get? (normalizeEntries m) key = (m.get? key).map (normalizeUnder key) := by
  rw [normalizeEntries_eq_map, OrderedMap.get?_map_values]

theorem normalizeEach_eq_map (m : RawSchema) :
    normalizeEach m = m.map fun e => (e.1, e.2.normalize) := by
  induction m with
  | nil => rfl
  | cons e m ih => rw [normalizeEach, List.map_cons, ih]

theorem get?_normalizeEach (m : RawSchema) (key : String) :
    OrderedMap.get? (normalizeEach m) key = (m.get? key).map normalize := by
  rw [normalizeEach_eq_map, OrderedMap.get?_map_values fun _ => normalize]

theorem normalizeItems_eq_map (items : List Json) : normalizeItems items = items.map normalize := by
  induction items with
  | nil => rfl
  | cons j items ih => rw [normalizeItems, List.map_cons, ih]

theorem get?_normalizeValues (j : Json) (name : String) :
    (normalizeValues j).get? name = (j.get? name).map normalize := by
  cases j with
  | object m => exact get?_normalizeEach m name
  | null | bool _ | number _ | string _ | array _ => rfl

theorem items?_normalizeMembers (j : Json) :
    (normalizeMembers j).items? = j.items?.map fun members => members.map normalize := by
  cases j with
  | array items => exact congrArg some (normalizeItems_eq_map items)
  | null | bool _ | number _ | string _ | object _ => rfl

theorem isObject_normalize (h : j.isObject = true) : j.normalize.isObject = true := by
  cases j with
  | object m => rw [normalize]; rfl
  | null | bool _ | number _ | string _ | array _ => cases h

theorem pick?_normalizeUnder (slot : Slot) (j : Json) :
    slot.pick? (normalizeUnder slot.keyword j) = (slot.pick? j).map normalize := by
  have hmembers (place : Nat) : ((normalizeMembers j).items?.bind fun members => members[place]?) =
      (j.items?.bind fun members => members[place]?).map normalize := by
    rw [items?_normalizeMembers]
    cases j.items? <;> simp
  cases slot with
  | items | not => rfl
  | values =>
    have hvalue : normalizeUnder (Slot.keyword .values) j =
        if j.isObject then normalize j else j := rfl
    rw [hvalue, Slot.pick?, Slot.pick?]
    by_cases hj : j.isObject = true
    · simp [hj, isObject_normalize hj]
    · simp [hj]
  | property name => exact get?_normalizeValues j name
  | allOf place | anyOf place | oneOf place => exact hmembers place

end Json

namespace RawSchema

variable {m : RawSchema} {key : String}

theorem get?_foldConstant (h : m.keys.Nodup) (hkey : key ∉ ["const", "enum", "type"]) :
    m.foldConstant.get? key = m.get? key := by
  simp only [List.mem_cons, List.not_mem_nil, or_false, not_or] at hkey
  obtain ⟨hconst, henum, htype⟩ := hkey
  unfold foldConstant
  split
  · rfl
  · next j hj =>
    have hfolded : ((m.swapErase "const").insertNew "enum" (.array [j])).get? key = m.get? key := by
      rw [OrderedMap.get?_insertNew_of_ne _ _ henum, OrderedMap.get?_swapErase_of_ne h hconst]
    simp only
    split
    · rw [OrderedMap.get?_insertNew_of_ne _ _ htype, hfolded]
    · exact hfolded

theorem get?_markNullable (hkey : key ≠ "nullable") : m.markNullable.get? key = m.get? key := by
  unfold markNullable
  split
  · exact OrderedMap.get?_insertNew_of_ne m _ hkey
  · rfl

theorem get?_collapseReference (h : m.keys.Nodup) (reference key : String) :
    (m.collapseReference (some reference)).get? key =
      if key = "nullable" then some (.bool true)
      else if key = "$ref" then some (.string reference)
      else if key = "anyOf" then none
      else m.get? key := by
  unfold collapseReference
  by_cases hnullable : key = "nullable"
  · rw [if_pos hnullable, hnullable, OrderedMap.get?_insert_self]
  rw [if_neg hnullable, OrderedMap.get?_insert_of_ne _ _ hnullable]
  by_cases href : key = "$ref"
  · rw [if_pos href, href, OrderedMap.get?_insert_self]
  rw [if_neg href, OrderedMap.get?_insert_of_ne _ _ href]
  by_cases hany : key = "anyOf"
  · rw [if_pos hany, hany, OrderedMap.get?_swapErase_self h]
  · rw [if_neg hany, OrderedMap.get?_swapErase_of_ne h hany]

/-- A choice of two members, one of which admits null, gives way to the first reference among them.
It may be one member that is both. -/
structure Collapses (m : RawSchema) (reference : String) (kept dropped : Json) : Prop where
  members : m.get? "anyOf" = some (.array [kept, dropped]) ∨
    m.get? "anyOf" = some (.array [dropped, kept]) ∧ dropped.reference? = none
  reference : kept.reference? = some reference
  null : kept.admitsNull = true ∨ dropped.admitsNull = true

def NullChoice (m : RawSchema) (reference : String) : Prop :=
  ∃ target other, target.reference? = some reference ∧ other.AdmitsOnlyNull ∧
    (m.get? "anyOf" = some (.array [target, other]) ∨
      m.get? "anyOf" = some (.array [other, target]))

theorem nullableReference?_eq_some {reference : String} :
    m.nullableReference? = some reference ↔
      ∃ kept dropped, m.Collapses reference kept dropped := by
  constructor
  · intro h
    unfold nullableReference? at h
    split at h
    · next first second hmembers =>
      split at h
      · next hnull =>
        rw [Bool.or_eq_true] at hnull
        rcases Option.or_eq_some_iff.1 h with hfirst | ⟨hnone, hsecond⟩
        · exact ⟨first, second, .inl hmembers, hfirst, hnull⟩
        · exact ⟨second, first, .inr ⟨hmembers, hnone⟩, hsecond, hnull.symm⟩
      · cases h
    · cases h
  · rintro ⟨kept, dropped, hmembers, hreference, hnull⟩
    have hkept : ((kept.get? "$ref").bind Json.string?) = some reference := hreference
    rcases hmembers with hmembers | ⟨hmembers, hnone⟩
    · rw [nullableReference?, hmembers]
      simp [hkept, hnull]
    · have hdropped : ((dropped.get? "$ref").bind Json.string?) = none := hnone
      rw [nullableReference?, hmembers]
      simp [hkept, hdropped, hnull.symm]

theorem nullableReference?_eq_none : m.nullableReference? = none ↔
    ∀ reference kept dropped, ¬m.Collapses reference kept dropped := by
  rw [← Option.not_isSome_iff_eq_none, Option.isSome_iff_exists]
  simp only [nullableReference?_eq_some, not_exists]

theorem Collapses.nullChoice_iff {reference : String} {kept dropped : Json}
    (h : m.Collapses reference kept dropped) : m.NullChoice reference ↔
      dropped.AdmitsOnlyNull ∨ kept.AdmitsOnlyNull ∧ dropped.reference? = some reference := by
  constructor
  · rintro ⟨target, other, htarget, hother, hpair | hpair⟩
    · rcases h.members with hmembers | ⟨hmembers, hnone⟩
      · rw [hmembers] at hpair
        cases hpair
        exact .inl hother
      · rw [hmembers] at hpair
        cases hpair
        rw [hnone] at htarget
        cases htarget
    · rcases h.members with hmembers | ⟨hmembers, -⟩
      · rw [hmembers] at hpair
        cases hpair
        exact .inr ⟨hother, htarget⟩
      · rw [hmembers] at hpair
        cases hpair
        exact .inl hother
  · have hpair : m.get? "anyOf" = some (.array [kept, dropped]) ∨
        m.get? "anyOf" = some (.array [dropped, kept]) := h.members.imp_right And.left
    rintro (hdropped | ⟨hkept, hsame⟩)
    · exact ⟨kept, dropped, h.reference, hdropped, hpair⟩
    · exact ⟨dropped, kept, hsame, hkept, hpair.symm⟩

theorem NullChoice.collapses {reference : String} (h : m.NullChoice reference) :
    ∃ reference' kept dropped, m.Collapses reference' kept dropped := by
  obtain ⟨target, other, htarget, hother, hpair | hpair⟩ := h
  · exact ⟨reference, target, other, .inl hpair, htarget, .inr hother.admitsNull⟩
  · cases hreference : other.reference? with
    | none =>
      exact ⟨reference, target, other, .inr ⟨hpair, hreference⟩, htarget, .inr hother.admitsNull⟩
    | some reference' =>
      exact ⟨reference', other, target, .inl hpair, hreference, .inl hother.admitsNull⟩

def settled (m : RawSchema) : RawSchema :=
  let inner : RawSchema := Json.normalizeEntries m
  inner.foldConstant.markNullable

theorem nodup_keys_settled (h : (Json.object m).Distinct) : m.settled.keys.Nodup := by
  obtain ⟨hkeys, hvalues⟩ := Json.Distinct.object_iff.1 h
  have hinner : (Json.object (Json.normalizeEntries m)).Distinct :=
    .object (by rwa [Json.keys_normalizeEntries]) (Json.normalizeEntries_distinct hvalues)
  exact (Json.Distinct.object_iff.1 hinner.foldConstant.markNullable).1

theorem get?_settled (h : m.keys.Nodup) (hkey : key ∉ ["const", "enum", "type", "nullable"]) :
    m.settled.get? key = (m.get? key).map (Json.normalizeUnder key) := by
  simp only [List.mem_cons, List.not_mem_nil, or_false, not_or] at hkey
  have hinner : (OrderedMap.keys (Json.normalizeEntries m)).Nodup := by
    rwa [Json.keys_normalizeEntries]
  rw [settled, get?_markNullable hkey.2.2.2, get?_foldConstant hinner (by simp [hkey])]
  exact Json.get?_normalizeEntries m key

end RawSchema

namespace Json

variable {m : RawSchema} {j s : Json} {slot : Slot} {path : List Slot}

theorem normalize_object (m : RawSchema) :
    (Json.object m).normalize = .object (m.settled.collapseReference m.nullableReference?) := by
  rw [normalize]
  rfl

theorem get?_normalize_of_kept (h : (Json.object m).Distinct) (hnone : m.nullableReference? = none)
    {key : String} (hkey : key ∉ ["const", "enum", "type", "nullable"]) :
    (Json.object m).normalize.get? key = (m.get? key).map (normalizeUnder key) := by
  rw [normalize_object, hnone]
  exact RawSchema.get?_settled (Distinct.object_iff.1 h).1 hkey

theorem get?_normalize_of_collapsed (h : (Json.object m).Distinct) {reference : String}
    (hsome : m.nullableReference? = some reference) (key : String) :
    (Json.object m).normalize.get? key =
      if key = "nullable" then some (.bool true)
      else if key = "$ref" then some (.string reference)
      else if key = "anyOf" then none
      else m.settled.get? key := by
  rw [normalize_object, hsome]
  exact RawSchema.get?_collapseReference (RawSchema.nodup_keys_settled h) reference key

theorem keyword_not_mem (slot : Slot) :
    slot.keyword ∉ ["const", "enum", "type", "nullable"] ∧ slot.keyword ≠ "$ref" := by
  cases slot <;> simp [Slot.keyword]

theorem eq_anyOf_of_keyword (h : slot.keyword = "anyOf") : ∃ place, slot = .anyOf place := by
  cases slot with
  | anyOf place => exact ⟨place, rfl⟩
  | items | values | property _ | allOf _ | oneOf _ | not => simp [Slot.keyword] at h

theorem schemaIn?_normalize (h : (Json.object m).Distinct)
    (hslot : m.nullableReference? = none ∨ slot.keyword ≠ "anyOf") :
    (Json.object m).normalize.schemaIn? slot =
      ((Json.object m).schemaIn? slot).map normalize := by
  obtain ⟨hkeyword, href⟩ := keyword_not_mem slot
  have hnullable : slot.keyword ≠ "nullable" := fun he => hkeyword (by simp [he])
  have hvalue : (Json.object m).normalize.get? slot.keyword =
      (m.get? slot.keyword).map (normalizeUnder slot.keyword) := by
    cases hreference : m.nullableReference? with
    | none => exact get?_normalize_of_kept h hreference hkeyword
    | some reference =>
      have hany := hslot.resolve_left (by simp [hreference])
      rw [get?_normalize_of_collapsed h hreference, if_neg hnullable, if_neg href, if_neg hany]
      exact RawSchema.get?_settled (Distinct.object_iff.1 h).1 hkeyword
  have hwritten : (Json.object m).get? slot.keyword = m.get? slot.keyword := rfl
  rw [schemaIn?, schemaIn?, hvalue, hwritten]
  cases m.get? slot.keyword with
  | none => rfl
  | some value => exact pick?_normalizeUnder slot value

theorem schemaIn?_normalize_anyOf (h : (Json.object m).Distinct) {reference : String}
    (hsome : m.nullableReference? = some reference) (place : Nat) :
    (Json.object m).normalize.schemaIn? (.anyOf place) = none := by
  have hvalue : (Json.object m).normalize.get? "anyOf" = none :=
    get?_normalize_of_collapsed h hsome "anyOf"
  rw [schemaIn?]
  exact congrArg (Option.bind · (Slot.anyOf place).pick?) hvalue

inductive Hidden : Json → List Slot → Prop
  | choice {m : RawSchema} {reference : String} {kept dropped : Json} (place : Nat)
      (path : List Slot) (h : m.Collapses reference kept dropped) :
      Hidden (.object m) (.anyOf place :: path)
  | inside {j s : Json} {slot : Slot} {path : List Slot} (hs : j.schemaIn? slot = some s)
      (h : Hidden s path) : Hidden j (slot :: path)

theorem get?_eq_some {key : String} {value : Json} :
    j.get? key = some value ↔ ∃ m : RawSchema, j = .object m ∧ m.get? key = some value := by
  cases j <;> simp [get?, entries?]

theorem items?_eq_some {members : List Json} : j.items? = some members ↔ j = .array members := by
  cases j <;> simp [items?]

theorem pick?_eq_some (hs : slot.pick? j = some s) :
    s = j ∨ (∃ key, j.get? key = some s) ∨ ∃ members, j = .array members ∧ s ∈ members := by
  have hmembers (place : Nat) (hs : (j.items?.bind fun members => members[place]?) = some s) :
      ∃ members, j = .array members ∧ s ∈ members := by
    obtain ⟨members, hmembers, hs⟩ := Option.bind_eq_some_iff.1 hs
    exact ⟨members, items?_eq_some.1 hmembers, List.mem_of_getElem? hs⟩
  cases slot with
  | items | not => exact .inl (Option.some.inj hs).symm
  | values =>
    rw [Slot.pick?] at hs
    split at hs
    · exact .inl (Option.some.inj hs).symm
    · cases hs
  | property name => exact .inr (.inl ⟨name, hs⟩)
  | allOf place | anyOf place | oneOf place => exact .inr (.inr (hmembers place hs))

theorem Distinct.pick? (h : j.Distinct) (hs : slot.pick? j = some s) : s.Distinct := by
  rcases pick?_eq_some hs with rfl | ⟨key, hkey⟩ | ⟨members, rfl, hmem⟩
  · exact h
  · obtain ⟨m, rfl, hget⟩ := Json.get?_eq_some.1 hkey
    exact h.get? hget
  · cases h with
    | array hall => exact hall s hmem

theorem Distinct.schemaIn? (h : j.Distinct) (hs : j.schemaIn? slot = some s) : s.Distinct := by
  obtain ⟨value, hvalue, hpick⟩ := Option.bind_eq_some_iff.1 hs
  obtain ⟨m, rfl, hget⟩ := Json.get?_eq_some.1 hvalue
  exact Distinct.pick? (h.get? hget) hpick

theorem schemaIn?_eq_some (hs : j.schemaIn? slot = some s) : ∃ m : RawSchema, j = .object m := by
  obtain ⟨value, hvalue, _⟩ := Option.bind_eq_some_iff.1 hs
  obtain ⟨m, hm, _⟩ := get?_eq_some.1 hvalue
  exact ⟨m, hm⟩

theorem schemaIn?_normalize_cases (h : j.Distinct) (hs : j.schemaIn? slot = some s) :
    j.normalize.schemaIn? slot = some s.normalize ∨
      j.normalize.schemaIn? slot = none ∧ ∀ path, j.Hidden (slot :: path) := by
  obtain ⟨m, rfl⟩ := schemaIn?_eq_some hs
  by_cases hslot : m.nullableReference? = none ∨ slot.keyword ≠ "anyOf"
  · rw [schemaIn?_normalize h hslot, hs]
    exact .inl rfl
  · obtain ⟨hsome, hany⟩ := not_or.1 hslot
    obtain ⟨reference, hsome⟩ := Option.ne_none_iff_exists'.1 hsome
    obtain ⟨kept, dropped, hcollapses⟩ := RawSchema.nullableReference?_eq_some.1 hsome
    obtain ⟨place, rfl⟩ := eq_anyOf_of_keyword (not_not.1 hany)
    exact .inr ⟨schemaIn?_normalize_anyOf h hsome place, fun path => .choice place path hcollapses⟩

theorem schemaAt?_normalize (h : j.Distinct) (hs : j.schemaAt? path = some s)
    (hopen : ¬j.Hidden path) : j.normalize.schemaAt? path = some s.normalize := by
  induction path generalizing j with
  | nil =>
    cases hs
    rfl
  | cons slot path ih =>
    obtain ⟨t, ht, hs⟩ := Option.bind_eq_some_iff.1 hs
    rcases schemaIn?_normalize_cases h ht with hnormal | ⟨-, hhidden⟩
    · rw [schemaAt?, hnormal]
      exact ih (h.schemaIn? ht) hs fun hinside => hopen (.inside ht hinside)
    · exact absurd (hhidden path) hopen

theorem schemaAt?_normalize_of_hidden (h : j.Distinct) (hhidden : j.Hidden path) :
    j.normalize.schemaAt? path = none := by
  induction hhidden with
  | choice place path hcollapses =>
    have hsome := RawSchema.nullableReference?_eq_some.2 ⟨_, _, hcollapses⟩
    rw [schemaAt?, schemaIn?_normalize_anyOf h hsome]
    rfl
  | inside ht _ ih =>
    rcases schemaIn?_normalize_cases h ht with hnormal | ⟨hnone, -⟩
    · rw [schemaAt?, hnormal]
      exact ih (h.schemaIn? ht)
    · rw [schemaAt?, hnone]
      rfl

theorem Distinct.schemaAt? (h : j.Distinct) (hs : j.schemaAt? path = some s) : s.Distinct := by
  induction path generalizing j with
  | nil =>
    cases hs
    exact h
  | cons slot path ih =>
    obtain ⟨t, ht, hs⟩ := Option.bind_eq_some_iff.1 hs
    exact ih (h.schemaIn? ht) hs

/-- What becomes of the alternatives of a schema. A choice that gives way is replaced by its
reference; every other one keeps all members, each in normal form. A reference or null always gives
way; what else does loses a member that is more than null. -/
structure ChoiceExact (m : RawSchema) : Prop where
  collapsed : ∀ reference kept dropped, m.Collapses reference kept dropped →
    (Json.object m).normalize.get? "anyOf" = none ∧
    (Json.object m).normalize.get? "$ref" = some (.string reference) ∧
    (Json.object m).normalize.get? "nullable" = some (.bool true)
  whole : (∀ reference kept dropped, ¬m.Collapses reference kept dropped) →
    (∀ members, m.get? "anyOf" = some (.array members) →
      (Json.object m).normalize.get? "anyOf" = some (.array (members.map normalize))) ∧
    (Json.object m).normalize.get? "$ref" = m.get? "$ref"
  collapses : ∀ reference, m.NullChoice reference →
    ∃ reference' kept dropped, m.Collapses reference' kept dropped
  lossless_iff : ∀ reference kept dropped, m.Collapses reference kept dropped →
    (m.NullChoice reference ↔
      dropped.AdmitsOnlyNull ∨ kept.AdmitsOnlyNull ∧ dropped.reference? = some reference)

theorem choiceExact (h : (Json.object m).Distinct) : ChoiceExact m := by
  refine ⟨?_, ?_, fun _ => RawSchema.NullChoice.collapses,
    fun _ _ _ => RawSchema.Collapses.nullChoice_iff⟩
  · intro reference kept dropped hcollapses
    have hsome := RawSchema.nullableReference?_eq_some.2 ⟨kept, dropped, hcollapses⟩
    have hget := get?_normalize_of_collapsed h hsome
    exact ⟨hget "anyOf", hget "$ref", hget "nullable"⟩
  · intro hkept
    have hnone := RawSchema.nullableReference?_eq_none.2 hkept
    have hget (key : String) (hkey : key ∉ ["const", "enum", "type", "nullable"]) :=
      get?_normalize_of_kept h hnone hkey
    refine ⟨fun members hmembers => ?_, ?_⟩
    · rw [hget "anyOf" (by decide), hmembers]
      exact congrArg (fun items => some (Json.array items)) (normalizeItems_eq_map members)
    · rw [hget "$ref" (by decide)]
      cases m.get? "$ref" <;> rfl

structure AlternativesExact (j : Json) : Prop where
  placed : ∀ path s, j.schemaAt? path = some s → ¬j.Hidden path →
    j.normalize.schemaAt? path = some s.normalize
  hidden : ∀ path, j.Hidden path → j.normalize.schemaAt? path = none
  choices : ∀ path m, j.schemaAt? path = some (.object m) → ChoiceExact m

theorem normalize_alternatives (h : j.Distinct) : j.AlternativesExact where
  placed _ _ := schemaAt?_normalize h
  hidden _ := schemaAt?_normalize_of_hidden h
  choices _ _ hs := choiceExact (h.schemaAt? hs)

theorem Distinct.singleton (key : String) (h : j.Distinct) : (Json.object [(key, j)]).Distinct :=
  .object (List.nodup_singleton key) (List.forall_mem_singleton.2 h)

theorem Distinct.pair (h : j.Distinct) (h' : s.Distinct) : (Json.array [j, s]).Distinct :=
  .array (List.forall_mem_cons.2 ⟨h, List.forall_mem_singleton.2 h'⟩)

def petReference : Json := .object [("$ref", .string "#/components/schemas/Pet")]

theorem petReference_distinct : petReference.Distinct := .singleton "$ref" (.string _)

def petOrNull : RawSchema :=
  [("anyOf", .array [petReference, .object [("type", .string "null")]])]

theorem petOrNull_distinct : (Json.object petOrNull).Distinct := by
  have hnull : (Json.object [("type", .string "null")]).Distinct := .singleton "type" (.string _)
  exact .singleton "anyOf" (petReference_distinct.pair hnull)

def petOrName : RawSchema :=
  [("anyOf", .array [petReference, .object [("type", .string "string")]])]

theorem petOrName_distinct : (Json.object petOrName).Distinct := by
  have hname : (Json.object [("type", .string "string")]).Distinct := .singleton "type" (.string _)
  exact .singleton "anyOf" (petReference_distinct.pair hname)

def petChoices : Json := .object [("items", .object petOrNull), ("not", .object petOrName)]

theorem petChoices_distinct : petChoices.Distinct := by
  refine .object (by decide) (List.forall_mem_cons.2 ⟨petOrNull_distinct, ?_⟩)
  exact List.forall_mem_singleton.2 petOrName_distinct

theorem normalize_alternatives_pet : petChoices.Distinct ∧ petChoices.AlternativesExact ∧
    (Json.object petOrNull).normalize.get? "anyOf" = none ∧
    (Json.object petOrNull).normalize.get? "$ref" = some (.string "#/components/schemas/Pet") ∧
    (Json.object petOrName).normalize.get? "anyOf" =
      some (.array ([petReference, .object [("type", .string "string")]].map normalize)) := by
  have hexact := normalize_alternatives petChoices_distinct
  have hgives : petOrNull.Collapses "#/components/schemas/Pet" petReference
      (.object [("type", .string "null")]) := ⟨.inl rfl, rfl, .inr rfl⟩
  have hstays : ∀ reference kept dropped, ¬petOrName.Collapses reference kept dropped :=
    RawSchema.nullableReference?_eq_none.1 rfl
  obtain ⟨hgone, hreference, -⟩ :=
    (hexact.choices [.items] petOrNull rfl).collapsed _ _ _ hgives
  exact ⟨petChoices_distinct, hexact, hgone, hreference,
    ((hexact.choices [.not] petOrName rfl).whole hstays).1 _ rfl⟩

def textOrNull : Json := .object [("type", .array [.string "string", .string "null"])]

theorem textOrNull_not_only : ¬textOrNull.AdmitsOnlyNull := by
  have htype : textOrNull.get? "type" = some (.array [.string "string", .string "null"]) := rfl
  rintro (hnull | ⟨types, htypes, -, hall⟩)
  · rw [htype] at hnull
    cases hnull
  · rw [htype] at htypes
    cases htypes
    exact absurd (hall (.string "string") List.mem_cons_self) (by simp [string?])

theorem petReference_not_only : ¬petReference.AdmitsOnlyNull := by
  have htype : petReference.get? "type" = none := rfl
  rintro (hnull | ⟨types, htypes, -⟩)
  · rw [htype] at hnull
    cases hnull
  · rw [htype] at htypes
    cases htypes

def petOrText : RawSchema := [("anyOf", .array [petReference, textOrNull])]

theorem petOrText_loses : (Json.object petOrText).Distinct ∧
    (∀ reference, ¬petOrText.NullChoice reference) ∧
    (Json.object petOrText).normalize.get? "anyOf" = none ∧
    (Json.object petOrText).normalize.get? "$ref" =
      some (.string "#/components/schemas/Pet") := by
  have htypes : (Json.array [.string "string", .string "null"]).Distinct :=
    (Distinct.string _).pair (.string _)
  refine ⟨.singleton "anyOf" (petReference_distinct.pair (.singleton "type" htypes)), ?_, ?_, ?_⟩
  · have hmembers : petOrText.get? "anyOf" = some (.array [petReference, textOrNull]) := rfl
    rintro reference ⟨target, other, -, hother, hpair⟩
    rw [hmembers] at hpair
    rcases hpair with hpair | hpair
    · cases hpair
      exact textOrNull_not_only hother
    · cases hpair
      exact petReference_not_only hother
  · rfl
  · rfl

end Json

end ApiModel
