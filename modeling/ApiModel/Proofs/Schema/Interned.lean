import ApiModel.Proofs.Reachability.Closure
import ApiModel.Proofs.Schema.Sites
import Mathlib.Data.List.Perm.Basic

namespace ApiModel

namespace SchemaNode

variable {n : SchemaNode}

theorem toList_child? (h : (n.children.map Prod.fst).Nodup) (slot : Slot) :
    (n.child? slot).toList = n.children.filterMap fun e => if e.1 = slot then some e.2 else none := by
  unfold child?
  generalize n.children = children at h ⊢
  induction children with
  | nil => rfl
  | cons e rest ih =>
    obtain ⟨s, id⟩ := e
    obtain ⟨hnew, hrest⟩ := List.nodup_cons.1 h
    by_cases hs : s = slot
    · have hnone : (rest.filterMap fun e => if e.1 = slot then some e.2 else none) = [] := by
        refine List.filterMap_eq_nil_iff.2 fun e he => if_neg fun heq => hnew ?_
        exact List.mem_map.2 ⟨e, he, heq.trans hs.symm⟩
      simp [hs, hnone]
    · simpa [hs] using ih hrest

theorem subschemas_perm (h : (n.children.map Prod.fst).Nodup) :
    n.subschemas.Perm n.childIds := by
  have hitems := toList_child? h .items
  have hvalues := toList_child? h .values
  have hnot := toList_child? h .not
  simp only [subschemas, items, values, not, hitems, hvalues, hnot, oneOf, allOf, anyOf,
    properties, childIds, OrderedMap.values]
  refine List.perm_iff_count.2 fun id => ?_
  clear h hitems hvalues hnot
  induction n.children with
  | nil => rfl
  | cons e rest ih =>
    obtain ⟨slot, i⟩ := e
    cases slot <;> simp [List.count_cons] at ih ⊢ <;> omega

end SchemaNode

namespace SchemaObject

mutual

def schemas : SchemaObject → List SchemaObject
  | .mk keywords extensions parts => .mk keywords extensions parts :: partSchemas parts

def partSchemas : List (Slot × SchemaObject) → List SchemaObject
  | [] => []
  | (_, s) :: rest => s.schemas ++ partSchemas rest

end

mutual

theorem keywords_layOut (location : String) (base : Nat) (s : SchemaObject) :
    (layOut location base s).map (·.toKeywords) = s.schemas.map keywords := by
  match s with
  | .mk _ _ parts =>
    rw [layOut, schemas, List.map_cons, List.map_cons, keywords_layOutParts]
    rfl

theorem keywords_layOutParts (location : String) (base : Nat) (parts : List (Slot × SchemaObject)) :
    (layOutParts location base parts).map (·.toKeywords) = (partSchemas parts).map keywords := by
  match parts with
  | [] => rfl
  | (slot, s) :: rest =>
    rw [layOutParts, partSchemas, List.map_append, List.map_append, keywords_layOut,
      keywords_layOutParts]

end

theorem length_schemas (s : SchemaObject) : s.schemas.length = s.size := by
  have h := congrArg List.length (keywords_layOut "" 0 s)
  rw [List.length_map, List.length_map, length_layOut] at h
  exact h.symm

end SchemaObject

namespace Arena

variable {a b : Arena} {roots : List Nat} {s : SchemaObject} {location : String}

/-- One arena is another with the schema behind it: its own node comes first, then those of the
schemas inside it, one for each. -/
structure Adds (a : Arena) (location : String) (s : SchemaObject) (b : Arena) : Prop where
  kept : ∀ id < a.size, b.node id = a.node id
  size : b.size = a.size + s.schemas.length
  root : (b.node a.size).location = location
  nodes : ∀ place inner, s.schemas[place]? = some inner →
    (b.node (a.size + place)).toKeywords = inner.keywords

inductive Interned : List Nat → Arena → Prop
  | empty : Interned [] .empty
  | intern {roots : List Nat} {a : Arena} {s : SchemaObject} (location : String) :
      Interned roots a → s.Distinct → Interned (roots ++ [a.size]) (a.intern location s)

theorem node_intern_of_lt {id : Nat} (h : id < a.size) :
    (a.intern location s).node id = a.node id := by
  unfold node intern
  rw [Array.getElem?_append_left h]

theorem node_intern_add (place : Nat) :
    (a.intern location s).node (a.size + place) = (s.layOut location a.size)[place]?.getD {} := by
  unfold node intern size
  rw [Array.getElem?_append_right (Nat.le_add_right _ _), List.getElem?_toArray,
    Nat.add_sub_cancel_left]

theorem adds_intern (a : Arena) (location : String) (s : SchemaObject) :
    a.Adds location s (a.intern location s) where
  kept _ hid := node_intern_of_lt hid
  size := by rw [size_intern, SchemaObject.length_schemas]
  root := by
    cases s
    exact congrArg _ (node_intern_add 0)
  nodes place inner hinner := by
    have hkeywords := congrArg (·[place]?) (s.keywords_layOut location a.size)
    simp only [List.getElem?_map, hinner, Option.map_some, Option.map_eq_some_iff] at hkeywords
    obtain ⟨n, hn, hkeywords⟩ := hkeywords
    rw [node_intern_add, hn, Option.getD_some, hkeywords]

theorem Interned.distinct (h : Interned roots a) : a.Distinct := by
  induction h with
  | empty => simp [Arena.Distinct, Arena.empty]
  | intern location _ hs ih => exact ih.intern hs location

theorem Interned.perm (h : Interned roots a) : (roots ++ a.edges).Perm (List.range a.size) := by
  induction h with
  | empty => simp [edges, Arena.empty, Arena.size]
  | @intern roots a s location _ hs ih =>
    have hnew := s.childIds_layOut location a.size
    have hgrown := ih.append hnew
    rw [size_intern, List.range_eq_range', ← List.range'_append_1, ← List.range_eq_range',
      Nat.zero_add, edges_intern]
    refine List.Perm.trans ?_ hgrown
    simp only [List.append_assoc, List.singleton_append]
    exact List.perm_middle.symm.append_left roots

theorem Interned.subschemas_perm (h : Interned roots a) :
    (a.nodes.toList.flatMap SchemaNode.subschemas).Perm a.edges :=
  List.Perm.flatMap_left _ fun n hn =>
    SchemaNode.subschemas_perm (h.distinct n (Array.mem_def.2 hn))

theorem interned_forest (h : Interned roots a) :
    (∀ location s, a.Adds location s (a.intern location s)) ∧
      (∀ id, ∀ child ∈ (a.node id).subschemas, id < child ∧ child < a.size) ∧
      ∀ id < a.size, (a.nodes.toList.flatMap SchemaNode.subschemas).count id =
        if id ∈ roots then 0 else 1 := by
  refine ⟨a.adds_intern, fun id child hchild => ?_, fun id hid => ?_⟩
  · exact a.child_bounds (SchemaNode.mem_childIds_of_mem_subschemas hchild)
  · have honce : roots.count id + a.edges.count id = 1 := by
      rw [← List.count_append, h.perm.count_eq,
        List.count_eq_one_of_mem List.nodup_range (List.mem_range.2 hid)]
    rw [h.subschemas_perm.count_eq]
    split
    · next hroot =>
      have hpos := List.count_pos_iff.2 hroot
      omega
    · next hroot =>
      have hzero := List.count_eq_zero.2 hroot
      omega

def crowded : SchemaObject :=
  let leaf := SchemaObject.mk {} [] []
  .mk { types := ["object"] } []
    [(.items, leaf), (.values, leaf), (.property "items", .mk {} [] [(.items, leaf)]),
      (.allOf 0, leaf), (.anyOf 0, leaf), (.oneOf 0, leaf), (.oneOf 1, leaf), (.not, leaf)]

theorem crowded_distinct : crowded.Distinct := by
  have leaf : (SchemaObject.mk {} [] []).Distinct := .mk List.nodup_nil (by simp)
  refine .mk (by decide) ?_
  simp only [List.forall_mem_cons, leaf, true_and, List.not_mem_nil]
  exact ⟨.mk (by decide) (by simpa using leaf), by simp⟩

theorem interned_forest_crowded : ∃ a, Interned [0, 10] a ∧ a.size = 20 ∧
    (a.node 10).subschemas = [11, 12, 17, 18, 15, 16, 19, 13] ∧
    (a.node 13).subschemas = [14] ∧ (13 < 14 ∧ 14 < a.size) ∧
    (a.nodes.toList.flatMap SchemaNode.subschemas).count 10 = 0 ∧
    (a.nodes.toList.flatMap SchemaNode.subschemas).count 14 = 1 := by
  have h : Interned [0, 10] ((Arena.empty.intern "#/a" crowded).intern "#/b" crowded) :=
    .intern "#/b" (.intern "#/a" .empty crowded_distinct) crowded_distinct
  obtain ⟨_, hforward, honce⟩ := interned_forest h
  exact ⟨_, h, rfl, rfl, rfl, hforward 13 14 (List.mem_singleton.2 rfl), honce 10 (by decide),
    honce 14 (by decide)⟩

end Arena

end ApiModel
