import ApiModel.Proofs.Document.Located
import ApiModel.Proofs.Document.Merging

namespace ApiModel

namespace Document

/-- What a schema is composed of. A reference stands for its target alone, whatever else is written
beside it; any other schema has its members, unless it is a union. -/
def ComposedOf (d : Document) (id part : Nat) : Prop :=
  (∃ reference, (d.node id).reference = some reference ∧ d.resolve? reference = some part) ∨
    d.Declares id ∧ part ∈ (d.node id).merged

def writtenParts (d : Document) (id : Nat) : List Nat :=
  if (d.node id).oneOf = [] then
    ((d.node id).reference.bind d.resolve?).toList ++ (d.node id).merged
  else []

structure PropertiesExact (d : Document) (id : Nat) : Prop where
  entered : ∀ x, x ∈ (d.resolveProperties id).visited ↔ Relation.ReflTransGen d.ComposedOf id x
  once : (d.resolveProperties id).visited.Nodup
  names : ∀ name, name ∈ (d.resolveProperties id).properties.keys ↔
    ∃ x, Relation.ReflTransGen d.ComposedOf id x ∧ d.Declares x ∧
      name ∈ (d.node x).properties.keys
  distinct : (d.resolveProperties id).properties.keys.Nodup
  declared : ∀ e ∈ (d.resolveProperties id).properties,
    ∃ x, Relation.ReflTransGen d.ComposedOf id x ∧ d.Declares x ∧ e ∈ (d.node x).properties
  own : d.Declares id → ∀ e ∈ (d.node id).properties,
    (d.resolveProperties id).properties.get? e.1 = some e.2
  written : (∀ x, Relation.ReflTransGen d.ComposedOf id x → (d.node x).reference ≠ none →
      (d.node x).oneOf = [] ∧ (d.node x).merged = []) →
    ∀ x, Relation.ReflTransGen (fun y z => z ∈ d.writtenParts y) id x ↔
      Relation.ReflTransGen d.ComposedOf id x

variable {d : Document} {id x : Nat} {counts : Bool} {steps : List MergeStep}
  {m : MergedProperties}

theorem mem_turns_iff_composedOf {part : Nat} :
    (∃ c, (part, c) ∈ d.turns id) ↔ d.ComposedOf id part := by
  cases href : (d.node id).reference with
  | some reference => simp [turns, ComposedOf, Declares, href]
  | none =>
    cases hone : (d.node id).oneOf <;>
      simp [turns, ComposedOf, Declares, SchemaNode.merged, href, hone, exists_or]

theorem composedOf_of_along {path : List Nat} {y : Nat} {c : Bool}
    (h : d.along id path = some (y, c)) : Relation.ReflTransGen d.ComposedOf id y := by
  induction path generalizing id c with
  | nil =>
    simp only [along, Option.some.injEq, Prod.mk.injEq] at h
    exact h.1 ▸ .refl
  | cons i path ih =>
    simp only [along, Option.bind_eq_some_iff, Option.map_eq_some_iff] at h
    obtain ⟨⟨next, c'⟩, hturn, ⟨z, c''⟩, hrest, heq⟩ := h
    obtain ⟨rfl, -⟩ := Prod.mk.inj heq
    exact .head (mem_turns_iff_composedOf.1 ⟨c', List.mem_of_getElem? hturn⟩) (ih hrest)

theorem along_of_composedOf {y : Nat} (h : Relation.ReflTransGen d.ComposedOf id y) :
    ∃ path c, d.along id path = some (y, c) := by
  induction h with
  | refl => exact ⟨[], true, rfl⟩
  | tail _ hpart ih =>
    obtain ⟨path, c, hpath⟩ := ih
    obtain ⟨c', hturn⟩ := mem_turns_iff_composedOf.2 hpart
    obtain ⟨i, hi⟩ := List.getElem?_of_mem hturn
    exact ⟨path ++ [i], _, along_turn hpath hi⟩

theorem mem_visited_iff (hd : d.Rooted) (hid : id < d.arena.size) :
    x ∈ (d.resolveProperties id).visited ↔ Relation.ReflTransGen d.ComposedOf id x := by
  obtain ⟨visits, htrail, hvisited, -⟩ := resolveProperties_trail hd hid
  rw [hvisited x]
  constructor
  · intro hx
    obtain ⟨v, hv, rfl⟩ := List.mem_map.1 hx
    exact composedOf_of_along (htrail.leads v (List.mem_append_left _ hv))
  · intro hx
    obtain ⟨path, c, hpath⟩ := along_of_composedOf hx
    exact htrail.complete hpath

theorem mergeAll_append (steps rest : List MergeStep) (m : MergedProperties) :
    d.mergeAll (steps ++ rest) m = d.mergeAll rest (d.mergeAll steps m) := by
  fun_induction mergeAll d steps m with
  | case1 m => rfl
  | case2 m id counts steps ih => rw [List.cons_append, mergeAll, ih]
  | case3 m id counts steps hopen ih =>
    rw [List.cons_append, mergeAll, dif_pos hopen, ← List.append_assoc, ih]
  | case4 m id counts steps hclosed ih => rw [List.cons_append, mergeAll, dif_neg hclosed, ih]

def Contributes (d : Document) (steps : List MergeStep) (m out : MergedProperties) (x : Nat) :
    Prop :=
  (∃ counts, .declare x counts ∈ steps) ∨ (x ∈ out.visited ∧ x ∉ m.visited) ∧ d.Declares x

structure Gathers (d : Document) (steps : List MergeStep) (m out : MergedProperties) : Prop where
  visited : m.visited ⊆ out.visited
  once : m.visited.Nodup → out.visited.Nodup
  names : ∀ name, name ∈ out.properties.keys ↔ name ∈ m.properties.keys ∨
    ∃ x, d.Contributes steps m out x ∧ name ∈ (d.node x).properties.keys
  distinct : m.properties.keys.Nodup → out.properties.keys.Nodup
  declared : ∀ e ∈ out.properties, e ∈ m.properties ∨
    ∃ x, d.Contributes steps m out x ∧ e ∈ (d.node x).properties

namespace Gathers

variable {rest : List MergeStep} {out : MergedProperties}

theorem nil (d : Document) (m : MergedProperties) : d.Gathers [] m m where
  visited := List.Subset.refl _
  once := id
  names name := by simp [Contributes]
  distinct := id
  declared e he := .inl he

theorem declare (h : d.Gathers rest (m.declare (d.node id) counts) out) :
    d.Gathers (.declare id counts :: rest) m out := by
  have hcontributes : ∀ x, d.Contributes (.declare id counts :: rest) m out x ↔
      x = id ∨ d.Contributes rest (m.declare (d.node id) counts) out x := by
    intro x
    simp [Contributes, MergedProperties.declare, exists_or, or_assoc]
  refine ⟨h.visited, h.once, fun name => ?_, fun hm => ?_, fun e he => ?_⟩
  · rw [h.names name]
    simp only [hcontributes, or_and_right, exists_or, exists_eq_left, ← or_assoc]
    exact or_congr_left OrderedMap.mem_keys_insertAll
  · exact h.distinct (OrderedMap.nodup_keys_insertAll hm _)
  · simp only [hcontributes, or_and_right, exists_or, exists_eq_left, ← or_assoc]
    exact (h.declared e he).imp_left OrderedMap.mem_insertAll

theorem enter (hfresh : id ∉ m.visited)
    (h : d.Gathers (d.mergeSteps id counts ++ rest) { m with visited := id :: m.visited } out) :
    d.Gathers (.enter id counts :: rest) m out := by
  have hid : id ∈ out.visited := h.visited List.mem_cons_self
  have hcontributes : ∀ x, d.Contributes (.enter id counts :: rest) m out x ↔
      d.Contributes (d.mergeSteps id counts ++ rest) { m with visited := id :: m.visited }
        out x := by
    intro x
    simp only [Contributes, List.mem_append, declare_mem_mergeSteps, List.mem_cons, reduceCtorEq,
      false_or, not_or, exists_or]
    constructor
    · rintro (hdue | ⟨⟨hx, hm⟩, hdeclares⟩)
      · exact .inl (.inr hdue)
      · by_cases he : x = id
        · exact .inl (.inl ⟨counts, he, rfl, he ▸ hdeclares⟩)
        · exact .inr ⟨⟨hx, he, hm⟩, hdeclares⟩
    · rintro ((⟨_, rfl, -, hdeclares⟩ | hdue) | ⟨⟨hx, -, hm⟩, hdeclares⟩)
      · exact .inr ⟨⟨hid, hfresh⟩, hdeclares⟩
      · exact .inl hdue
      · exact .inr ⟨⟨hx, hm⟩, hdeclares⟩
  refine ⟨fun x hx => h.visited (List.mem_cons_of_mem _ hx),
    fun hm => h.once (List.nodup_cons.2 ⟨hfresh, hm⟩), fun name => ?_, h.distinct, fun e he => ?_⟩
  · simp only [hcontributes]
    exact h.names name
  · simp only [hcontributes]
    exact h.declared e he

theorem skip (h : d.Gathers rest m out) : d.Gathers (.enter id counts :: rest) m out := by
  have hcontributes : ∀ x, d.Contributes (.enter id counts :: rest) m out x ↔
      d.Contributes rest m out x := fun x => by simp [Contributes]
  refine ⟨h.visited, h.once, fun name => ?_, h.distinct, fun e he => ?_⟩
  · simp only [hcontributes]
    exact h.names name
  · simp only [hcontributes]
    exact h.declared e he

end Gathers

theorem gathers_mergeAll (d : Document) (steps : List MergeStep) (m : MergedProperties) :
    d.Gathers steps m (d.mergeAll steps m) := by
  fun_induction mergeAll d steps m with
  | case1 m => exact .nil d m
  | case2 m id counts rest ih => exact ih.declare
  | case3 m id counts rest hopen ih => exact ih.enter hopen.2
  | case4 m id counts rest hclosed ih => exact ih.skip

theorem properties_of_declares (hid : id < d.arena.size) (h : d.Declares id) :
    ∃ m : MergedProperties,
      (d.resolveProperties id).properties = m.properties.insertAll (d.node id).properties := by
  have hopen : id < d.arena.size ∧ id ∉ ({} : MergedProperties).visited := ⟨hid, by simp⟩
  have hsteps : d.mergeSteps id true =
      (d.turns id).map (fun turn => .enter turn.1 (true && turn.2)) ++ [.declare id true] := by
    rw [mergeSteps_eq, if_pos h]
  refine ⟨d.mergeAll ((d.turns id).map fun turn => .enter turn.1 (true && turn.2))
    { visited := [id] }, ?_⟩
  rw [resolveProperties, mergeAll, dif_pos hopen, List.append_nil, hsteps, mergeAll_append,
    mergeAll, mergeAll]
  rfl

theorem composedOf_iff_written {y z : Nat}
    (h : (d.node y).reference ≠ none → (d.node y).oneOf = [] ∧ (d.node y).merged = []) :
    z ∈ d.writtenParts y ↔ d.ComposedOf y z := by
  cases href : (d.node y).reference with
  | some reference =>
    obtain ⟨hone, hmerged⟩ := h (by simp [href])
    simp [writtenParts, ComposedOf, Declares, href, hone, hmerged]
  | none => by_cases hone : (d.node y).oneOf = [] <;>
      simp [writtenParts, ComposedOf, Declares, href, hone]

theorem composed_iff_written
    (h : ∀ x, Relation.ReflTransGen d.ComposedOf id x → (d.node x).reference ≠ none →
      (d.node x).oneOf = [] ∧ (d.node x).merged = []) :
    Relation.ReflTransGen (fun y z => z ∈ d.writtenParts y) id x ↔
      Relation.ReflTransGen d.ComposedOf id x := by
  constructor
  · intro hx
    induction hx with
    | refl => exact .refl
    | tail _ hpart ih => exact ih.tail ((composedOf_iff_written (h _ ih)).1 hpart)
  · intro hx
    induction hx with
    | refl => exact .refl
    | tail hy hpart ih => exact ih.tail ((composedOf_iff_written (h _ hy)).2 hpart)

theorem resolveProperties_composed {text : String} {o : Options} {complaints : List String}
    (hload : load text o = .ok (d, complaints)) (hid : id < d.arena.size) :
    PropertiesExact d id := by
  have hgathers : d.Gathers [.enter id true] {} (d.resolveProperties id) :=
    gathers_mergeAll d [.enter id true] {}
  have hvisited : ∀ x, x ∈ (d.resolveProperties id).visited ↔
      Relation.ReflTransGen d.ComposedOf id x := fun x =>
    mem_visited_iff (rooted_of_load hload) hid
  have hcontributes : ∀ x, d.Contributes [.enter id true] {} (d.resolveProperties id) x ↔
      Relation.ReflTransGen d.ComposedOf id x ∧ d.Declares x := fun x => by
    simp [Contributes, hvisited]
  refine ⟨hvisited, hgathers.once List.nodup_nil, fun name => ?_,
    hgathers.distinct (by simp [OrderedMap.keys]), fun e he => ?_, fun hdeclares e he => ?_,
    fun h x => composed_iff_written h⟩
  · simpa [hcontributes, OrderedMap.keys, and_assoc] using hgathers.names name
  · simpa [hcontributes, and_assoc] using hgathers.declared e he
  · obtain ⟨m, hm⟩ := properties_of_declares hid hdeclares
    rw [hm]
    exact OrderedMap.get?_insertAll_of_mem ((distinct_of_load hload).properties id) he

def woven : String :=
  "\x7bopenapi: '3.1', info: \x7b\x7d, components: \x7bschemas: \x7b" ++
    "A: \x7ballOf: [\x7b$ref: '#/components/schemas/B'\x7d, " ++
      "\x7b$ref: '#/components/schemas/C'\x7d], properties: \x7bx: \x7b\x7d\x7d\x7d, " ++
    "B: \x7banyOf: [\x7b$ref: '#/components/schemas/A'\x7d], " ++
      "properties: \x7bx: \x7b\x7d, y: \x7b\x7d\x7d\x7d, " ++
    "C: \x7b$ref: '#/components/schemas/B'\x7d\x7d\x7d\x7d"

theorem resolveProperties_composed_woven : ∃ d, load woven {} = .ok (d, []) ∧
    0 < d.arena.size ∧ PropertiesExact d 0 ∧
    (d.resolveProperties 0).properties = [("x", 1), ("y", 6)] := by
  have hcheck : ((load woven {}).toOption.any fun x => x.2.isEmpty && decide (0 < x.1.arena.size ∧
      (x.1.resolveProperties 0).properties = [("x", 1), ("y", 6)])) = true := by
    decide +kernel
  obtain ⟨⟨d, complaints⟩, hload, hrest⟩ := ok_of_any hcheck
  obtain ⟨hnone, hfacts⟩ := Bool.and_eq_true_iff.1 hrest
  obtain ⟨hid, hproperties⟩ := of_decide_eq_true hfacts
  obtain rfl : complaints = [] := List.isEmpty_iff.1 hnone
  exact ⟨d, hload, hid, resolveProperties_composed hload hid, hproperties⟩

def shadowed : String :=
  "\x7bopenapi: '3.1', info: \x7b\x7d, components: \x7bschemas: \x7b" ++
    "Base: \x7bproperties: \x7bid: \x7b\x7d\x7d\x7d, " ++
    "Note: \x7bproperties: \x7btext: \x7b\x7d\x7d\x7d, " ++
    "Pet: \x7ballOf: [\x7b$ref: '#/components/schemas/Base', oneOf: [\x7b\x7d]\x7d, " ++
      "\x7b$ref: '#/components/schemas/Note', " ++
        "allOf: [\x7bproperties: \x7btag: \x7b\x7d\x7d\x7d]\x7d]\x7d\x7d\x7d\x7d"

theorem shadowed_ignored : ∃ d, load shadowed {} = .ok (d, []) ∧ 4 < d.arena.size ∧
    ("id" ∈ (d.resolveProperties 4).properties.keys ∧
      ¬∃ x, Relation.ReflTransGen (fun y z => z ∈ d.writtenParts y) 4 x ∧ d.Declares x ∧
        "id" ∈ (d.node x).properties.keys) ∧
    ("tag" ∉ (d.resolveProperties 4).properties.keys ∧
      ∃ x, Relation.ReflTransGen (fun y z => z ∈ d.writtenParts y) 4 x ∧ d.Declares x ∧
        "tag" ∈ (d.node x).properties.keys) := by
  have hcheck : ((load shadowed {}).toOption.any fun x => x.2.isEmpty &&
      (decide (4 < x.1.arena.size ∧ (x.1.resolveProperties 4).properties.keys = ["id", "text"] ∧
        7 ∈ x.1.writtenParts 4 ∧ 8 ∈ x.1.writtenParts 7 ∧ x.1.Declares 8 ∧
          "tag" ∈ (x.1.node 8).properties.keys) &&
      decide (∀ y ∈ ([4, 5, 7, 2, 8] : List Nat), "id" ∉ (x.1.node y).properties.keys ∧
        ∀ z ∈ x.1.writtenParts y, z ∈ ([4, 5, 7, 2, 8] : List Nat)))) = true := by
    decide +kernel
  obtain ⟨⟨d, complaints⟩, hload, hrest⟩ := ok_of_any hcheck
  obtain ⟨hnone, hrest⟩ := Bool.and_eq_true_iff.1 hrest
  obtain ⟨hfacts, hclosed⟩ := Bool.and_eq_true_iff.1 hrest
  obtain ⟨hid, hkeys, hmember, htag, hdeclares, hname⟩ := of_decide_eq_true hfacts
  obtain rfl : complaints = [] := List.isEmpty_iff.1 hnone
  have hclosed := of_decide_eq_true hclosed
  have hwithin : ∀ x, Relation.ReflTransGen (fun y z => z ∈ d.writtenParts y) 4 x →
      x ∈ [4, 5, 7, 2, 8] := by
    intro x hx
    induction hx with
    | refl => exact List.mem_cons_self
    | tail _ hpart ih => exact (hclosed _ ih).2 _ hpart
  refine ⟨d, hload, hid, ⟨by simp [hkeys], ?_⟩, by simp [hkeys], 8, ?_, hdeclares, hname⟩
  · rintro ⟨x, hx, -, hdeclared⟩
    exact (hclosed x (hwithin x hx)).1 hdeclared
  · exact .head hmember (.single htag)

end Document

end ApiModel
