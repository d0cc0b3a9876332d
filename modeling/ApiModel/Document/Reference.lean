import ApiModel.Document.Basic
import ApiModel.Error

namespace ApiModel

namespace Document

def node (d : Document) (id : Nat) : SchemaNode := d.arena.node id

def schemaName? (reference : String) : Option String := componentName? .schemas reference

def resolve? (d : Document) (reference : String) : Option Nat :=
  (schemaName? reference).bind d.schemas.get?

theorem resolve?_mem {d : Document} {reference : String} {id : Nat}
    (h : d.resolve? reference = some id) : id ∈ d.schemas.values := by
  obtain ⟨name, _, hn⟩ := Option.bind_eq_some_iff.1 h
  exact List.mem_map.2 ⟨_, OrderedMap.mem_of_get? hn, rfl⟩

def unseen (d : Document) (seen : List Nat) : List Nat :=
  d.schemas.values.filter fun id => !seen.contains id

theorem unseen_lt {d : Document} {seen : List Nat} {id : Nat} (hid : id ∈ d.schemas.values)
    (hs : id ∉ seen) : (d.unseen (id :: seen)).length < (d.unseen seen).length := by
  have hsub : d.unseen (id :: seen) = (d.unseen seen).filter fun i => !decide (i = id) := by
    simp only [unseen, List.filter_filter]
    congr 1
    funext i
    by_cases h : i = id <;> simp [List.contains_eq_mem, h]
  rw [hsub]
  refine List.length_filter_lt_length_iff_exists.2 ⟨id, ?_, by simp⟩
  exact List.mem_filter.2 ⟨hid, by simpa [List.contains_eq_mem] using hs⟩

structure Link where
  reference : String
  id : Nat
  deriving DecidableEq, Repr

/-- The links of a chain of aliases from a reference on, up to a schema that is no alias. A chain
that leaves the document fails with its last reference, one that comes back with the first. -/
def linksFrom (d : Document) (first location : String) (seen : List Nat) (current : String) :
    Except ConversionError (List Link) :=
  match _found : d.resolve? current with
  | none => .error (.unresolved current location)
  | some id =>
      if _fresh : id ∈ seen then .error (.unresolved first (location ++ " (cyclic alias)"))
      else
        match (d.node id).reference with
        | none => .ok [⟨current, id⟩]
        | some next => (d.linksFrom first location (id :: seen) next).map (⟨current, id⟩ :: ·)
termination_by (d.unseen seen).length
decreasing_by exact unseen_lt (resolve?_mem _found) _fresh

def links (d : Document) (reference location : String) : Except ConversionError (List Link) :=
  d.linksFrom reference location [] reference

def resolveChain (d : Document) (reference location : String) : Except ConversionError Nat := do
  let links ← d.links reference location
  match links.getLast? with
  | some link => return link.id
  | none => .error (.unresolved reference location)

end Document

end ApiModel
