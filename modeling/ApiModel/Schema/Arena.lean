import ApiModel.Document.Pointer
import ApiModel.Object.Schema
import ApiModel.Schema.Extension

namespace ApiModel

structure SchemaNode extends Keywords where
  location : String := ""
  component : Option String := none
  extensions : Extensions := {}
  children : List (Slot × Nat) := []
  deriving Repr

namespace SchemaNode

def childIds (n : SchemaNode) : List Nat := n.children.map Prod.snd

def child? (n : SchemaNode) (slot : Slot) : Option Nat :=
  n.children.findSome? fun (s, id) => if s = slot then some id else none

def items (n : SchemaNode) : Option Nat := n.child? .items

def values (n : SchemaNode) : Option Nat := n.child? .values

def not (n : SchemaNode) : Option Nat := n.child? .not

def properties (n : SchemaNode) : OrderedMap String Nat :=
  n.children.filterMap fun
    | (.property name, id) => some (name, id)
    | _ => none

def allOf (n : SchemaNode) : List Nat :=
  n.children.filterMap fun
    | (.allOf _, id) => some id
    | _ => none

def anyOf (n : SchemaNode) : List Nat :=
  n.children.filterMap fun
    | (.anyOf _, id) => some id
    | _ => none

def oneOf (n : SchemaNode) : List Nat :=
  n.children.filterMap fun
    | (.oneOf _, id) => some id
    | _ => none

def merged (n : SchemaNode) : List Nat := n.allOf ++ n.anyOf

theorem mem_childIds_of_child? {n : SchemaNode} {slot : Slot} {id : Nat}
    (h : n.child? slot = some id) : id ∈ n.childIds := by
  obtain ⟨⟨s, i⟩, hmem, hs⟩ := List.exists_of_findSome?_eq_some h
  simp only [Option.ite_none_right_eq_some, Option.some.injEq] at hs
  exact List.mem_map.2 ⟨(s, i), hmem, hs.2⟩

theorem mem_childIds_of_mem_allOf {n : SchemaNode} {id : Nat} (h : id ∈ n.allOf) :
    id ∈ n.childIds := by
  obtain ⟨⟨s, i⟩, hmem, hs⟩ := List.mem_filterMap.1 h
  cases s <;> simp at hs
  exact List.mem_map.2 ⟨_, hmem, hs⟩

theorem mem_childIds_of_mem_anyOf {n : SchemaNode} {id : Nat} (h : id ∈ n.anyOf) :
    id ∈ n.childIds := by
  obtain ⟨⟨s, i⟩, hmem, hs⟩ := List.mem_filterMap.1 h
  cases s <;> simp at hs
  exact List.mem_map.2 ⟨_, hmem, hs⟩

theorem mem_childIds_of_mem_oneOf {n : SchemaNode} {id : Nat} (h : id ∈ n.oneOf) :
    id ∈ n.childIds := by
  obtain ⟨⟨s, i⟩, hmem, hs⟩ := List.mem_filterMap.1 h
  cases s <;> simp at hs
  exact List.mem_map.2 ⟨_, hmem, hs⟩

theorem mem_childIds_of_mem_merged {n : SchemaNode} {id : Nat} (h : id ∈ n.merged) :
    id ∈ n.childIds := by
  rcases List.mem_append.1 h with h | h
  · exact mem_childIds_of_mem_allOf h
  · exact mem_childIds_of_mem_anyOf h

def fullDescription (n : SchemaNode) : Option String :=
  let sample := n.sample.map fun j => "Example: " ++ j.plainText
  let samples :=
    if n.samples.isEmpty then none
    else some ("Examples:\n\t" ++ "\n\t".intercalate (n.samples.map Json.plainText))
  let text := "\n".intercalate (n.description.toList ++ sample.toList ++ samples.toList)
  if text.toList.all Text.isBlank then none else some text

end SchemaNode

def Slot.pointer : Slot → String
  | .items => "/items"
  | .values => "/additionalProperties"
  | .property name => "/properties/" ++ escapeSegment name
  | .allOf place => "/allOf/" ++ toString place
  | .anyOf place => "/anyOf/" ++ toString place
  | .oneOf place => "/oneOf/" ++ toString place
  | .not => "/not"

namespace SchemaObject

mutual

def size : SchemaObject → Nat
  | .mk _ _ parts => 1 + sizeOfParts parts

def sizeOfParts : List (Slot × SchemaObject) → Nat
  | [] => 0
  | (_, s) :: rest => s.size + sizeOfParts rest

end

def places (base : Nat) : List (Slot × SchemaObject) → List (Slot × Nat)
  | [] => []
  | (slot, s) :: rest => (slot, base) :: places (base + s.size) rest

mutual

def layOut (location : String) (base : Nat) : SchemaObject → List SchemaNode
  | .mk keywords extensions parts =>
      { keywords with
        location
        extensions := (Extensions.read extensions location).1
        children := places (base + 1) parts } :: layOutParts location (base + 1) parts

def layOutParts (location : String) (base : Nat) : List (Slot × SchemaObject) → List SchemaNode
  | [] => []
  | (slot, s) :: rest =>
      layOut (location ++ slot.pointer) base s ++ layOutParts location (base + s.size) rest

end

mutual

def complaints (location : String) : SchemaObject → List String
  | .mk _ extensions parts =>
      (Extensions.read extensions location).2 ++ partComplaints location parts

def partComplaints (location : String) : List (Slot × SchemaObject) → List String
  | [] => []
  | (slot, s) :: rest =>
      s.complaints (location ++ slot.pointer) ++ partComplaints location rest

end

mutual

theorem length_layOut (location : String) (base : Nat) (s : SchemaObject) :
    (layOut location base s).length = s.size := by
  match s with
  | .mk _ _ parts =>
    simp only [layOut, size, List.length_cons, length_layOutParts]
    omega

theorem length_layOutParts (location : String) (base : Nat)
    (parts : List (Slot × SchemaObject)) :
    (layOutParts location base parts).length = sizeOfParts parts := by
  match parts with
  | [] => simp [layOutParts, sizeOfParts]
  | (_, s) :: rest =>
    simp only [layOutParts, sizeOfParts, List.length_append, length_layOut, length_layOutParts]

end

theorem size_pos (s : SchemaObject) : 0 < s.size := by
  cases s with
  | mk _ _ parts => simp only [size]; omega

theorem places_bounds {base id : Nat} {parts : List (Slot × SchemaObject)}
    (h : id ∈ (places base parts).map Prod.snd) : base ≤ id ∧ id < base + sizeOfParts parts := by
  induction parts generalizing base with
  | nil => simp [places] at h
  | cons part rest ih =>
    obtain ⟨slot, s⟩ := part
    simp only [places, List.map_cons, List.mem_cons] at h
    simp only [sizeOfParts]
    rcases h with h | h
    · have := s.size_pos
      omega
    · have := ih h
      omega

mutual

theorem layOut_forward {location : String} {base place id : Nat} {s : SchemaObject}
    {n : SchemaNode} (hn : (layOut location base s)[place]? = some n) (hid : id ∈ n.childIds) :
    base + place < id ∧ id < base + s.size := by
  match s with
  | .mk keywords extensions parts =>
    cases place with
    | zero =>
      simp only [layOut, List.getElem?_cons_zero, Option.some.injEq] at hn
      subst hn
      have := places_bounds hid
      simp only [size]
      omega
    | succ place =>
      simp only [layOut, List.getElem?_cons_succ] at hn
      have := layOutParts_forward hn hid
      simp only [size]
      omega

theorem layOutParts_forward {location : String} {base place id : Nat}
    {parts : List (Slot × SchemaObject)} {n : SchemaNode}
    (hn : (layOutParts location base parts)[place]? = some n) (hid : id ∈ n.childIds) :
    base + place < id ∧ id < base + sizeOfParts parts := by
  match parts with
  | [] => simp [layOutParts] at hn
  | (slot, s) :: rest =>
    simp only [layOutParts] at hn
    simp only [sizeOfParts]
    by_cases hp : place < s.size
    · rw [List.getElem?_append_left (by rw [length_layOut]; exact hp)] at hn
      have := layOut_forward hn hid
      omega
    · rw [List.getElem?_append_right (by rw [length_layOut]; omega), length_layOut] at hn
      have := layOutParts_forward hn hid
      omega

end

mutual

theorem childIds_layOut (location : String) (base : Nat) (s : SchemaObject) :
    (base :: (layOut location base s).flatMap SchemaNode.childIds).Perm
      (List.range' base s.size) := by
  match s with
  | .mk keywords extensions parts =>
    have h := childIds_layOutParts location (base + 1) parts
    simp only [layOut, size, List.flatMap_cons, SchemaNode.childIds, Nat.add_comm 1,
      List.range'_succ]
    exact h.cons base

theorem childIds_layOutParts (location : String) (base : Nat)
    (parts : List (Slot × SchemaObject)) :
    ((places base parts).map Prod.snd ++
      (layOutParts location base parts).flatMap SchemaNode.childIds).Perm
      (List.range' base (sizeOfParts parts)) := by
  match parts with
  | [] => simp [places, layOutParts, sizeOfParts]
  | (slot, s) :: rest =>
    have hs := childIds_layOut (location ++ slot.pointer) base s
    have hrest := childIds_layOutParts location (base + s.size) rest
    simp only [places, layOutParts, sizeOfParts, List.map_cons, List.flatMap_append,
      ← List.range'_append_1, List.cons_append]
    refine List.Perm.trans ?_ (hs.append hrest)
    rw [List.cons_append, ← List.append_assoc, ← List.append_assoc]
    exact (List.perm_append_comm.append_right _).cons base

end

end SchemaObject

/-- All schemas of a document. No schema stands in two places. -/
structure Arena where
  nodes : Array SchemaNode
  forward : ∀ (id child : Nat) (n : SchemaNode),
    nodes[id]? = some n → child ∈ n.childIds → id < child ∧ child < nodes.size
  separate : (nodes.toList.flatMap SchemaNode.childIds).Nodup

namespace Arena

def empty : Arena := ⟨#[], by simp, by simp⟩

def size (a : Arena) : Nat := a.nodes.size

def node (a : Arena) (id : Nat) : SchemaNode := a.nodes[id]?.getD {}

theorem child_bounds (a : Arena) {id child : Nat} (h : child ∈ (a.node id).childIds) :
    id < child ∧ child < a.size := by
  unfold node at h
  cases hn : a.nodes[id]? with
  | none => simp [hn, SchemaNode.childIds] at h
  | some n =>
    simp only [hn, Option.getD_some] at h
    exact a.forward id child n hn h

def edges (a : Arena) : List Nat := a.nodes.toList.flatMap SchemaNode.childIds

theorem lt_of_mem_edges (a : Arena) {id : Nat} (h : id ∈ a.edges) : id < a.size := by
  obtain ⟨n, hn, hid⟩ := List.mem_flatMap.1 h
  obtain ⟨place, hp⟩ := List.getElem?_of_mem hn
  rw [Array.getElem?_toList] at hp
  exact (a.forward place id n hp hid).2

def intern (a : Arena) (location : String) (s : SchemaObject) : Arena where
  nodes := a.nodes ++ (s.layOut location a.nodes.size).toArray
  forward := by
    intro id child n hn hid
    simp only [Array.size_append, List.size_toArray, SchemaObject.length_layOut]
    by_cases h : id < a.nodes.size
    · rw [Array.getElem?_append_left h] at hn
      have := a.forward id child n hn hid
      omega
    · rw [Array.getElem?_append_right (by omega), List.getElem?_toArray] at hn
      have := SchemaObject.layOut_forward hn hid
      omega
  separate := by
    have hs := SchemaObject.childIds_layOut location a.nodes.size s
    have hnew := List.nodup_cons.1 (hs.nodup_iff.2 List.nodup_range')
    simp only [Array.toList_append, List.flatMap_append]
    refine List.nodup_append.2 ⟨a.separate, hnew.2, fun i hi j hj hij => ?_⟩
    have hlt : i < a.nodes.size := a.lt_of_mem_edges hi
    have hle := (List.mem_range'_1.1 (hs.subset (List.mem_cons_of_mem _ hj))).1
    omega

def setComponent (a : Arena) (id : Nat) (name : Option String) : Arena where
  nodes := a.nodes.modify id fun n => { n with component := name }
  forward := by
    intro i child n hn hid
    simp only [Array.getElem?_modify, Array.size_modify] at hn ⊢
    split at hn
    · cases hi : a.nodes[i]? with
      | none => simp [hi] at hn
      | some m =>
        simp only [hi, Option.map_some, Option.some.injEq] at hn
        subst hn
        exact a.forward i child m hi hid
    · exact a.forward i child n hn hid
  separate := by
    have h : ((a.nodes.modify id fun n => { n with component := name }).toList.map
        SchemaNode.childIds) = a.nodes.toList.map SchemaNode.childIds := by
      refine List.ext_getElem? fun i => ?_
      simp only [List.getElem?_map, Array.getElem?_toList, Array.getElem?_modify]
      split
      · cases a.nodes[i]? <;> rfl
      · rfl
    rw [List.flatMap_def, h, ← List.flatMap_def]
    exact a.separate

end Arena

end ApiModel
