import ApiModel.Proofs.Schema.Alternatives

namespace ApiModel

namespace OrderedMap

variable {α β : Type} [DecidableEq α]

theorem get?_insertNew_self (m : OrderedMap α β) (key : α) (value : β) :
    (m.insertNew key value).get? key = (m.get? key).or (some value) := by
  unfold insertNew contains
  cases hkey : m.get? key with
  | none => simp [get?_insert_self]
  | some old => simp [hkey]

end OrderedMap

namespace Json

theorem normalizeUnder_of_ne {key : String} (j : Json) (h : ∀ slot : Slot, slot.keyword ≠ key) :
    normalizeUnder key j = j := by
  unfold normalizeUnder
  split
  · exact absurd rfl (h .items)
  · exact absurd rfl (h .not)
  · exact absurd rfl (h .values)
  · exact absurd rfl (h (.property ""))
  · exact absurd rfl (h (.allOf 0))
  · exact absurd rfl (h (.anyOf 0))
  · exact absurd rfl (h (.oneOf 0))
  · rfl

theorem not_keyword {key : String} (h : key ∈ ["const", "enum", "type", "nullable"]) (slot : Slot) :
    slot.keyword ≠ key := fun heq => (keyword_not_mem slot).1 (heq ▸ h)

end Json

namespace RawSchema

variable {m : RawSchema} {key : String}

def enumeration? (m : RawSchema) : Option Json :=
  (m.get? "enum").or ((m.get? "const").map fun j => .array [j])

def type? (m : RawSchema) : Option Json :=
  (m.get? "type").or (((m.get? "const").bind Json.inferredType?).map .string)

theorem get?_foldConstant_const (h : m.keys.Nodup) : m.foldConstant.get? "const" = none := by
  unfold foldConstant
  split
  · next hnone => exact hnone
  · next j hj =>
    have hfolded : ((m.swapErase "const").insertNew "enum" (.array [j])).get? "const" = none := by
      rw [OrderedMap.get?_insertNew_of_ne _ _ (by decide), OrderedMap.get?_swapErase_self h]
    simp only
    split
    · rw [OrderedMap.get?_insertNew_of_ne _ _ (by decide), hfolded]
    · exact hfolded

theorem get?_foldConstant_enum (h : m.keys.Nodup) :
    m.foldConstant.get? "enum" = m.enumeration? := by
  unfold foldConstant enumeration?
  split
  · next hnone => simp [hnone]
  · next j hj =>
    have hfolded : ((m.swapErase "const").insertNew "enum" (.array [j])).get? "enum" =
        (m.get? "enum").or (some (.array [j])) := by
      rw [OrderedMap.get?_insertNew_self, OrderedMap.get?_swapErase_of_ne h (by decide)]
    simp only [hj, Option.map_some]
    split
    · rw [OrderedMap.get?_insertNew_of_ne _ _ (by decide), hfolded]
    · exact hfolded

theorem get?_foldConstant_type (h : m.keys.Nodup) : m.foldConstant.get? "type" = m.type? := by
  unfold foldConstant type?
  split
  · next hnone => simp [hnone]
  · next j hj =>
    have hfolded : ((m.swapErase "const").insertNew "enum" (.array [j])).get? "type" =
        m.get? "type" := by
      rw [OrderedMap.get?_insertNew_of_ne _ _ (by decide),
        OrderedMap.get?_swapErase_of_ne h (by decide)]
    simp only [hj, Option.bind_some]
    split
    · next type htype => rw [OrderedMap.get?_insertNew_self, hfolded, htype, Option.map_some]
    · next htype => rw [hfolded, htype, Option.map_none, Option.or_none]

theorem get?_markNullable_nullable : m.markNullable.get? "nullable" =
    (m.get? "nullable").or (if m.typesWithNull then some (.bool true) else none) := by
  unfold markNullable
  split
  · exact OrderedMap.get?_insertNew_self m "nullable" (.bool true)
  · simp

theorem get?_normalizeEntries_of_ne (h : ∀ slot : Slot, slot.keyword ≠ key) :
    OrderedMap.get? (Json.normalizeEntries m) key = m.get? key := by
  rw [Json.get?_normalizeEntries]
  cases m.get? key with
  | none => rfl
  | some j => rw [Option.map_some, Json.normalizeUnder_of_ne j h]

theorem nodup_keys_normalizeEntries (h : m.keys.Nodup) :
    (OrderedMap.keys (Json.normalizeEntries m)).Nodup := by
  rwa [Json.keys_normalizeEntries]

theorem get?_settled_const (h : m.keys.Nodup) : m.settled.get? "const" = none := by
  rw [settled, get?_markNullable (by decide),
    get?_foldConstant_const (nodup_keys_normalizeEntries h)]

theorem get?_settled_enum (h : m.keys.Nodup) : m.settled.get? "enum" = m.enumeration? := by
  rw [settled, get?_markNullable (by decide),
    get?_foldConstant_enum (nodup_keys_normalizeEntries h), enumeration?, enumeration?,
    get?_normalizeEntries_of_ne (Json.not_keyword (by decide)),
    get?_normalizeEntries_of_ne (Json.not_keyword (by decide))]

theorem get?_settled_type (h : m.keys.Nodup) : m.settled.get? "type" = m.type? := by
  rw [settled, get?_markNullable (by decide),
    get?_foldConstant_type (nodup_keys_normalizeEntries h), type?, type?,
    get?_normalizeEntries_of_ne (Json.not_keyword (by decide)),
    get?_normalizeEntries_of_ne (Json.not_keyword (by decide))]

theorem get?_settled_nullable (h : m.keys.Nodup) {value : Json}
    (hvalue : m.get? "nullable" = some value) : m.settled.get? "nullable" = some value := by
  rw [settled, get?_markNullable_nullable,
    get?_foldConstant (nodup_keys_normalizeEntries h) (by decide),
    get?_normalizeEntries_of_ne (Json.not_keyword (by decide)), hvalue, Option.some_or]

def rewrittenKeys : List String :=
  ["const", "enum", "type", "nullable", "anyOf", "$ref", "items", "not", "additionalProperties",
    "properties", "allOf", "oneOf"]

theorem keyword_mem_rewrittenKeys (slot : Slot) : slot.keyword ∈ rewrittenKeys := by
  cases slot <;> simp [Slot.keyword, rewrittenKeys]

structure Framed (m : RawSchema) (s : Json) : Prop where
  untouched : ∀ key, key ∉ rewrittenKeys → s.get? key = m.get? key
  kept : ∀ key ∈ ["enum", "type"], ∀ value, m.get? key = some value → s.get? key = some value
  whole : (∀ reference kept dropped, ¬m.Collapses reference kept dropped) →
    ∀ key ∈ ["nullable", "$ref"], ∀ value, m.get? key = some value → s.get? key = some value
  properties : ∀ entries, m.get? "properties" = some (.object entries) →
    s.get? "properties" = some (.object (entries.map fun e => (e.1, e.2.normalize)))

end RawSchema

namespace Json

variable {m : RawSchema} {j s : Json} {path : List Slot}

theorem get?_normalize_of_ne (h : (Json.object m).Distinct) {key : String}
    (hkey : key ∉ ["anyOf", "$ref", "nullable"]) :
    (Json.object m).normalize.get? key = m.settled.get? key := by
  simp only [List.mem_cons, List.not_mem_nil, or_false, not_or] at hkey
  obtain ⟨hany, href, hnullable⟩ := hkey
  cases hreference : m.nullableReference? with
  | none =>
    rw [normalize_object, hreference]
    rfl
  | some reference =>
    rw [get?_normalize_of_collapsed h hreference, if_neg hnullable, if_neg href, if_neg hany]

theorem framed_normalize (h : (Json.object m).Distinct) : m.Framed (Json.object m).normalize where
  untouched key hkey := by
    have hslot : ∀ slot : Slot, slot.keyword ≠ key :=
      fun slot heq => hkey (heq ▸ RawSchema.keyword_mem_rewrittenKeys slot)
    simp only [RawSchema.rewrittenKeys, List.mem_cons, List.not_mem_nil, or_false,
      not_or] at hkey
    rw [get?_normalize_of_ne h (by simp [hkey]),
      RawSchema.get?_settled (Distinct.object_iff.1 h).1 (by simp [hkey])]
    cases m.get? key with
    | none => rfl
    | some j => rw [Option.map_some, normalizeUnder_of_ne j hslot]
  kept key hkey value hvalue := by
    have hkeys := (Distinct.object_iff.1 h).1
    rcases List.mem_cons.1 hkey with rfl | hkey
    · rw [get?_normalize_of_ne h (by decide), RawSchema.get?_settled_enum hkeys,
        RawSchema.enumeration?, hvalue, Option.some_or]
    · obtain rfl := List.mem_singleton.1 hkey
      rw [get?_normalize_of_ne h (by decide), RawSchema.get?_settled_type hkeys,
        RawSchema.type?, hvalue, Option.some_or]
  whole hwhole key hkey value hvalue := by
    have hnone := RawSchema.nullableReference?_eq_none.2 hwhole
    rcases List.mem_cons.1 hkey with rfl | hkey
    · rw [normalize_object, hnone]
      exact RawSchema.get?_settled_nullable (Distinct.object_iff.1 h).1 hvalue
    · obtain rfl := List.mem_singleton.1 hkey
      rw [get?_normalize_of_kept h hnone (by decide), hvalue]
      rfl
  properties entries hentries := by
    rw [get?_normalize_of_ne h (by decide),
      RawSchema.get?_settled (Distinct.object_iff.1 h).1 (by decide), hentries, Option.map_some]
    exact congrArg (some ∘ Json.object) (normalizeEach_eq_map entries)

theorem normalize_confined (h : j.Distinct) (hm : j.schemaAt? path = some (.object m))
    (hs : j.normalize.schemaAt? path = some s) : m.Framed s := by
  have hopen : ¬j.Hidden path := by
    intro hhidden
    rw [schemaAt?_normalize_of_hidden h hhidden] at hs
    cases hs
  rw [schemaAt?_normalize h hm hopen] at hs
  cases hs
  exact framed_normalize (h.schemaAt? hm)

def namedAnyOf : RawSchema :=
  [("type", .array [.string "string", .string "null"]), ("nullable", .bool false),
    ("example", .object [("const", .null)])]

def namedLikeKeywords : RawSchema :=
  [("properties", .object [("const", .bool true), ("anyOf", .object namedAnyOf)])]

theorem namedAnyOf_distinct : (Json.object namedAnyOf).Distinct := by
  have htypes : (Json.array [.string "string", .string "null"]).Distinct :=
    (Distinct.string _).pair (.string _)
  have hexample : (Json.object [("const", .null)]).Distinct := .singleton "const" .null
  refine .object (by decide) ?_
  simp only [namedAnyOf, List.forall_mem_cons]
  exact ⟨htypes, .bool false, hexample, by simp⟩

theorem namedLikeKeywords_distinct : (Json.object namedLikeKeywords).Distinct := by
  refine .singleton "properties" (.object (by decide) ?_)
  simp only [List.forall_mem_cons]
  exact ⟨.bool true, namedAnyOf_distinct, by simp⟩

theorem normalize_confined_named :
    (Json.object namedLikeKeywords).schemaAt? [.property "anyOf"] = some (.object namedAnyOf) ∧
      ∃ s, (Json.object namedLikeKeywords).normalize.schemaAt? [.property "anyOf"] = some s ∧
        namedAnyOf.Framed s ∧ s.get? "nullable" = some (.bool false) := by
  have hplace : (Json.object namedLikeKeywords).schemaAt? [.property "anyOf"] =
      some (.object namedAnyOf) := rfl
  have hstill : (Json.object namedLikeKeywords).normalize.schemaAt? [.property "anyOf"] =
      some (Json.object namedAnyOf).normalize := rfl
  refine ⟨hplace, _, hstill, ?_, rfl⟩
  exact normalize_confined namedLikeKeywords_distinct hplace hstill

end Json

end ApiModel
