import ApiModel.Document.Reference
import ApiModel.Schema.Unvisited

namespace ApiModel

namespace Arena

def inlineMembers (a : Arena) (id : Nat) : List { member : Nat // id < member ∧ member < a.size } :=
  ((a.node id).merged.attach.map fun ⟨member, h⟩ =>
    ⟨member, a.child_bounds (SchemaNode.mem_childIds_of_mem_merged h)⟩ :
    List { member : Nat // id < member ∧ member < a.size }).filter
    fun member => (a.node member.1).reference.isNone

def ownProperties (a : Arena) (id : Nat) : OrderedMap String Nat :=
  let inherited := (a.inlineMembers id).foldl
    (fun (acc : OrderedMap String Nat) member => acc.insertAll (ownProperties a member.1)) []
  inherited.insertAll (a.node id).properties
termination_by a.size - id
decreasing_by
  have := member.2
  omega

end Arena

structure MergedProperties where
  visited : List Nat := []
  properties : OrderedMap String Nat := []
  required : OrderedSet String := []

namespace MergedProperties

def declare (m : MergedProperties) (n : SchemaNode) (counts : Bool) : MergedProperties :=
  { m with
    properties := m.properties.insertAll n.properties
    required := if counts then m.required.addAll n.required else m.required }

end MergedProperties

/-- A step of merging: to enter a schema, or to add its own declarations after those of its
members. `counts` tells whether what it requires is required of the whole. -/
inductive MergeStep where
  | enter (id : Nat) (counts : Bool)
  | declare (id : Nat) (counts : Bool)
  deriving Repr

namespace Document

def mergeSteps (d : Document) (id : Nat) (counts : Bool) : List MergeStep :=
  let n := d.node id
  match n.reference with
  | some reference => (d.resolve? reference).toList.map (MergeStep.enter · counts)
  | none =>
      if !n.oneOf.isEmpty then []
      else n.allOf.map (MergeStep.enter · counts) ++ n.anyOf.map (MergeStep.enter · false) ++
        [.declare id counts]

def mergeWeight (d : Document) (id : Nat) : Nat := (d.mergeSteps id true).length + 1

theorem length_mergeSteps (d : Document) (id : Nat) (counts : Bool) :
    (d.mergeSteps id counts).length < d.mergeWeight id := by
  suffices h : (d.mergeSteps id counts).length = (d.mergeSteps id true).length by
    rw [h, mergeWeight]
    omega
  unfold mergeSteps
  simp only
  split
  · simp
  · split <;> simp

def mergeAll (d : Document) : List MergeStep → MergedProperties → MergedProperties
  | [], m => m
  | .declare id counts :: rest, m => mergeAll d rest (m.declare (d.node id) counts)
  | .enter id counts :: rest, m =>
      if _open : id < d.arena.size ∧ id ∉ m.visited then
        mergeAll d (d.mergeSteps id counts ++ rest) { m with visited := id :: m.visited }
      else mergeAll d rest m
termination_by steps m => d.arena.unvisited d.mergeWeight m.visited + steps.length
decreasing_by
  · simp [MergedProperties.declare]
  · have := d.arena.unvisited_cons d.mergeWeight _open.1 _open.2
    have := d.length_mergeSteps id counts
    simp only [List.length_append, List.length_cons]
    omega
  · simp

def resolveProperties (d : Document) (id : Nat) : MergedProperties :=
  d.mergeAll [.enter id true] {}

end Document

end ApiModel
