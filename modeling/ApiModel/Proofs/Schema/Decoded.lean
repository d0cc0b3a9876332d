import ApiModel.Proofs.Schema.Sites

namespace ApiModel

namespace OrderedMap

variable {α β : Type} [DecidableEq α] {m : OrderedMap α β} {key : α}

theorem mem_of_mem_swapErase {e : α × β} (h : e ∈ m.swapErase key) : e ∈ m := by
  cases hget : m.get? key with
  | none => rwa [swapErase_of_get?_eq_none hget] at h
  | some value => exact (swapErase_perm hget).subset (List.mem_cons_of_mem _ h)

end OrderedMap

namespace Json.Distinct

variable {m : OrderedMap String Json} {j : Json}

theorem object_iff : (Json.object m).Distinct ↔ m.keys.Nodup ∧ ∀ e ∈ m, e.2.Distinct := by
  constructor
  · rintro ⟨⟩
    exact ⟨‹_›, ‹_›⟩
  · exact fun h => .object h.1 h.2

theorem insert (h : (Json.object m).Distinct) (key : String) (hj : j.Distinct) :
    (Json.object (m.insert key j)).Distinct := by
  rw [object_iff] at h ⊢
  refine ⟨OrderedMap.nodup_keys_insert h.1 key j, fun e he => ?_⟩
  rcases OrderedMap.mem_insert he with he | rfl
  · exact h.2 e he
  · exact hj

theorem insertNew (h : (Json.object m).Distinct) (key : String) (hj : j.Distinct) :
    (Json.object (m.insertNew key j)).Distinct := by
  unfold OrderedMap.insertNew
  split
  · exact h
  · exact h.insert key hj

theorem swapErase (h : (Json.object m).Distinct) (key : String) :
    (Json.object (m.swapErase key)).Distinct := by
  rw [object_iff] at h ⊢
  exact ⟨OrderedMap.nodup_keys_swapErase h.1 key,
    fun e he => h.2 e (OrderedMap.mem_of_mem_swapErase he)⟩

theorem take (h : (Json.object m).Distinct) (key : String) :
    (Json.object (m.take key).2).Distinct := by
  unfold OrderedMap.take
  cases m.get? key with
  | none => exact h
  | some value => exact h.swapErase key

theorem foldConstant (h : (Json.object m).Distinct) :
    (Json.object (RawSchema.foldConstant m)).Distinct := by
  unfold RawSchema.foldConstant
  split
  · exact h
  · next j hj =>
    have hj := h.get? hj
    have hm := (h.swapErase "const").insertNew "enum" (.array (List.forall_mem_singleton.2 hj))
    simp only
    split
    · exact hm.insertNew "type" (.string _)
    · exact hm

theorem markNullable (h : (Json.object m).Distinct) :
    (Json.object (RawSchema.markNullable m)).Distinct := by
  unfold RawSchema.markNullable
  split
  · exact h.insertNew "nullable" (.bool true)
  · exact h

theorem collapseReference (h : (Json.object m).Distinct) (target : Option String) :
    (Json.object (RawSchema.collapseReference target m)).Distinct := by
  cases target with
  | none => exact h
  | some target =>
    exact ((h.swapErase "anyOf").insert "$ref" (.string target)).insert "nullable" (.bool true)

end Json.Distinct

namespace Json

theorem keys_normalizeEntries (m : OrderedMap String Json) :
    OrderedMap.keys (normalizeEntries m) = m.keys := by
  induction m with
  | nil => rfl
  | cons e m ih =>
    unfold normalizeEntries
    exact congrArg (e.1 :: ·) ih

theorem keys_normalizeEach (m : OrderedMap String Json) :
    OrderedMap.keys (normalizeEach m) = m.keys := by
  induction m with
  | nil => rfl
  | cons e m ih =>
    unfold normalizeEach
    exact congrArg (e.1 :: ·) ih

mutual

theorem Distinct.normalize {j : Json} (h : j.Distinct) : j.normalize.Distinct := by
  match j with
  | .object m =>
    rw [Json.normalize]
    obtain ⟨hkeys, hvalues⟩ := Distinct.object_iff.1 h
    have hinner : (Json.object (normalizeEntries m)).Distinct :=
      .object (by rwa [keys_normalizeEntries]) (normalizeEntries_distinct hvalues)
    exact hinner.foldConstant.markNullable.collapseReference _
  | .bool true =>
    rw [Json.normalize]
    exact .object (by simp [OrderedMap.keys]) (by simp)
  | .bool false =>
    rw [Json.normalize]
    have hempty : (Json.object []).Distinct := .object (by simp [OrderedMap.keys]) (by simp)
    exact .object (by simp [OrderedMap.keys]) (List.forall_mem_singleton.2 hempty)
  | .null | .number _ | .string _ | .array _ => exact h

theorem normalizeEntries_distinct {m : List (String × Json)} (h : ∀ e ∈ m, e.2.Distinct) :
    ∀ e ∈ normalizeEntries m, e.2.Distinct := by
  match m with
  | [] => simp [normalizeEntries]
  | (key, j) :: rest =>
    obtain ⟨hj, hrest⟩ := List.forall_mem_cons.1 h
    unfold normalizeEntries
    refine List.forall_mem_cons.2 ⟨?_, normalizeEntries_distinct hrest⟩
    split
    · exact hj.normalize
    · exact hj.normalize
    · split
      · exact hj.normalize
      · exact hj
    · exact hj.normalizeValues
    all_goals first | exact hj.normalizeMembers | exact hj

theorem Distinct.normalizeValues {j : Json} (h : j.Distinct) : j.normalizeValues.Distinct := by
  match j with
  | .object m =>
    rw [Json.normalizeValues]
    obtain ⟨hkeys, hvalues⟩ := Distinct.object_iff.1 h
    exact .object (by rwa [keys_normalizeEach]) (normalizeEach_distinct hvalues)
  | .null | .bool _ | .number _ | .string _ | .array _ => exact h

theorem normalizeEach_distinct {m : List (String × Json)} (h : ∀ e ∈ m, e.2.Distinct) :
    ∀ e ∈ normalizeEach m, e.2.Distinct := by
  match m with
  | [] => simp [normalizeEach]
  | (key, j) :: rest =>
    obtain ⟨hj, hrest⟩ := List.forall_mem_cons.1 h
    rw [normalizeEach]
    exact List.forall_mem_cons.2 ⟨hj.normalize, normalizeEach_distinct hrest⟩

theorem Distinct.normalizeMembers {j : Json} (h : j.Distinct) : j.normalizeMembers.Distinct := by
  match j with
  | .array items =>
    rw [Json.normalizeMembers]
    cases h with
    | array hitems => exact .array (normalizeItems_distinct hitems)
  | .null | .bool _ | .number _ | .string _ | .object _ => exact h

theorem normalizeItems_distinct {items : List Json} (h : ∀ j ∈ items, j.Distinct) :
    ∀ j ∈ normalizeItems items, j.Distinct := by
  match items with
  | [] => simp [normalizeItems]
  | j :: rest =>
    obtain ⟨hj, hrest⟩ := List.forall_mem_cons.1 h
    rw [normalizeItems]
    exact List.forall_mem_cons.2 ⟨hj.normalize, normalizeItems_distinct hrest⟩

end

end Json

namespace SchemaObject

structure Draft.Distinct (d : Draft) : Prop where
  items : ∀ s ∈ d.items, s.Distinct
  values : ∀ s ∈ d.values, s.Distinct
  names : (d.properties.map Prod.fst).Nodup
  properties : ∀ e ∈ d.properties, e.2.Distinct
  allOf : ∀ s ∈ d.allOf, s.Distinct
  anyOf : ∀ s ∈ d.anyOf, s.Distinct
  oneOf : ∀ s ∈ d.oneOf, s.Distinct
  not : ∀ s ∈ d.not, s.Distinct

theorem Draft.distinct_blank : ({} : Draft).Distinct := by
  constructor <;> simp

theorem mem_numbered {slot : Nat → Slot} {members : List SchemaObject} {part : Slot × SchemaObject}
    (h : part ∈ numbered slot members) : part.2 ∈ members := by
  obtain ⟨⟨member, place⟩, hmem, rfl⟩ := List.mem_map.1 h
  exact List.fst_mem_of_mem_zipIdx hmem

theorem nodup_numbered {slot : Nat → Slot} (h : Function.Injective slot)
    (members : List SchemaObject) : ((numbered slot members).map Prod.fst).Nodup := by
  have hslots : (numbered slot members).map Prod.fst = (members.zipIdx.map Prod.snd).map slot := by
    rw [numbered, List.map_map, List.map_map]
    rfl
  rw [hslots, List.zipIdx_map_snd]
  exact List.Nodup.map h List.nodup_range'

theorem Draft.Distinct.finish {d : Draft} (h : d.Distinct) : d.finish.Distinct := by
  refine .mk ?_ ?_
  · have hitems : ((d.items.toList.map (Slot.items, ·)).map Prod.fst).Nodup := by
      cases d.items <;> simp
    have hvalues : ((d.values.toList.map (Slot.values, ·)).map Prod.fst).Nodup := by
      cases d.values <;> simp
    have hproperties :
        ((d.properties.map fun e => (Slot.property e.1, e.2)).map Prod.fst).Nodup := by
      have hnames := h.names.map (f := Slot.property) fun _ _ he => Slot.property.inj he
      rwa [List.map_map] at hnames ⊢
    have hallOf := nodup_numbered (fun _ _ he => Slot.allOf.inj he) d.allOf
    have hanyOf := nodup_numbered (fun _ _ he => Slot.anyOf.inj he) d.anyOf
    have honeOf := nodup_numbered (fun _ _ he => Slot.oneOf.inj he) d.oneOf
    have hnot : ((d.not.toList.map (Slot.not, ·)).map Prod.fst).Nodup := by
      cases d.not <;> simp
    -- What is left is that slots of different groups differ.
    simp only [List.map_append, List.nodup_append']
    refine ⟨⟨⟨⟨⟨⟨hitems, hvalues, ?_⟩, hproperties, ?_⟩, hallOf, ?_⟩, hanyOf, ?_⟩, honeOf, ?_⟩,
      hnot, ?_⟩ <;> simp [List.disjoint_left, numbered] <;> grind
  · simp only [List.forall_mem_append, List.forall_mem_map]
    refine ⟨⟨⟨⟨⟨⟨?_, ?_⟩, h.properties⟩, ?_⟩, ?_⟩, ?_⟩, ?_⟩
    · exact fun s hs => h.items s (Option.mem_toList.1 hs)
    · exact fun s hs => h.values s (Option.mem_toList.1 hs)
    · exact fun part hpart => h.allOf _ (mem_numbered hpart)
    · exact fun part hpart => h.anyOf _ (mem_numbered hpart)
    · exact fun part hpart => h.oneOf _ (mem_numbered hpart)
    · exact fun s hs => h.not s (Option.mem_toList.1 hs)

mutual

theorem distinct_of_decode {j : Json} {s : SchemaObject} (hj : j.Distinct)
    (h : decode j = .ok s) : s.Distinct := by
  match j with
  | .object entries =>
    rw [decode] at h
    obtain ⟨d, hd, rfl⟩ := ok_of_map h
    have hentries := Json.Distinct.object_iff.1 hj
    exact (distinct_of_decodeEntries hentries.2 Draft.distinct_blank hd).finish
  | .null | .bool _ | .number _ | .string _ | .array _ => cases h

theorem distinct_of_decodeEntries {entries : List (String × Json)} {d d' : Draft}
    (hentries : ∀ e ∈ entries, e.2.Distinct) (hd : d.Distinct)
    (h : decodeEntries entries d = .ok d') : d'.Distinct := by
  match entries with
  | [] =>
    cases h
    exact hd
  | (key, j) :: rest =>
    obtain ⟨hj, hrest⟩ := List.forall_mem_cons.1 hentries
    unfold decodeEntries at h
    split at h
    · obtain ⟨k, -, h⟩ := ok_of_bind h
      refine distinct_of_decodeEntries hrest ?_ h
      exact { hd with }
    · split at h
      · obtain ⟨s, hs, h⟩ := ok_of_bind h
        refine distinct_of_decodeEntries hrest ?_ h
        exact { hd with items := distinct_of_decodeOption hj hs }
      · split at h
        · refine distinct_of_decodeEntries hrest ?_ h
          exact { hd with }
        · split at h
          · next hs =>
            refine distinct_of_decodeEntries hrest ?_ h
            exact { hd with values := distinct_of_decodeOption hj hs }
          · cases h
      · obtain ⟨properties, hproperties, h⟩ := ok_of_bind h
        obtain ⟨hnames, hvalues⟩ := distinct_of_decodeProperties hj hproperties
        refine distinct_of_decodeEntries hrest ?_ h
        exact { hd with names := hnames, properties := hvalues }
      · obtain ⟨members, hmembers, h⟩ := ok_of_bind h
        refine distinct_of_decodeEntries hrest ?_ h
        exact { hd with allOf := distinct_of_decodeMembers hj hmembers }
      · obtain ⟨members, hmembers, h⟩ := ok_of_bind h
        refine distinct_of_decodeEntries hrest ?_ h
        exact { hd with anyOf := distinct_of_decodeMembers hj hmembers }
      · obtain ⟨members, hmembers, h⟩ := ok_of_bind h
        refine distinct_of_decodeEntries hrest ?_ h
        exact { hd with oneOf := distinct_of_decodeMembers hj hmembers }
      · obtain ⟨s, hs, h⟩ := ok_of_bind h
        refine distinct_of_decodeEntries hrest ?_ h
        exact { hd with not := distinct_of_decodeOption hj hs }
      · refine distinct_of_decodeEntries hrest ?_ h
        exact { hd with }

theorem distinct_of_decodeOption {j : Json} {o : Option SchemaObject} (hj : j.Distinct)
    (h : decodeOption j = .ok o) : ∀ s ∈ o, s.Distinct := by
  match j with
  | .null =>
    cases h
    simp
  | .object entries =>
    rw [decodeOption] at h
    obtain ⟨d, hd, rfl⟩ := ok_of_map h
    have hentries := Json.Distinct.object_iff.1 hj
    rintro s ⟨⟩
    exact (distinct_of_decodeEntries hentries.2 Draft.distinct_blank hd).finish
  | .bool _ | .number _ | .string _ | .array _ => cases h

theorem distinct_of_decodeProperties {j : Json} {properties : List (String × SchemaObject)}
    (hj : j.Distinct) (h : decodeProperties j = .ok properties) :
    (properties.map Prod.fst).Nodup ∧ ∀ e ∈ properties, e.2.Distinct := by
  match j with
  | .null =>
    cases h
    simp
  | .object entries =>
    obtain ⟨hkeys, hvalues⟩ := Json.Distinct.object_iff.1 hj
    obtain ⟨hnames, hproperties⟩ := distinct_of_decodePropertyList hvalues h
    exact ⟨hnames ▸ hkeys, hproperties⟩
  | .bool _ | .number _ | .string _ | .array _ => cases h

theorem distinct_of_decodePropertyList {entries : List (String × Json)}
    {properties : List (String × SchemaObject)} (hentries : ∀ e ∈ entries, e.2.Distinct)
    (h : decodePropertyList entries = .ok properties) :
    properties.map Prod.fst = OrderedMap.keys entries ∧ ∀ e ∈ properties, e.2.Distinct := by
  match entries with
  | [] =>
    cases h
    simp [OrderedMap.keys]
  | (name, j) :: rest =>
    obtain ⟨hj, hrest⟩ := List.forall_mem_cons.1 hentries
    rw [decodePropertyList] at h
    obtain ⟨s, hs, h⟩ := ok_of_bind h
    obtain ⟨properties, hproperties, h⟩ := ok_of_bind h
    cases h
    obtain ⟨hnames, hall⟩ := distinct_of_decodePropertyList hrest hproperties
    exact ⟨congrArg (name :: ·) hnames,
      List.forall_mem_cons.2 ⟨distinct_of_decode hj hs, hall⟩⟩

theorem distinct_of_decodeMembers {j : Json} {members : List SchemaObject} (hj : j.Distinct)
    (h : decodeMembers j = .ok members) : ∀ s ∈ members, s.Distinct := by
  match j with
  | .null =>
    cases h
    simp
  | .array items =>
    cases hj with
    | array hitems => exact distinct_of_decodeMemberList hitems h
  | .bool _ | .number _ | .string _ | .object _ => cases h

theorem distinct_of_decodeMemberList {items : List Json} {members : List SchemaObject}
    (hitems : ∀ j ∈ items, j.Distinct) (h : decodeMemberList items = .ok members) :
    ∀ s ∈ members, s.Distinct := by
  match items with
  | [] =>
    cases h
    simp
  | j :: rest =>
    obtain ⟨hj, hrest⟩ := List.forall_mem_cons.1 hitems
    rw [decodeMemberList] at h
    obtain ⟨s, hs, h⟩ := ok_of_bind h
    obtain ⟨members, hmembers, h⟩ := ok_of_bind h
    cases h
    exact List.forall_mem_cons.2
      ⟨distinct_of_decode hj hs, distinct_of_decodeMemberList hrest hmembers⟩

end

end SchemaObject

end ApiModel
