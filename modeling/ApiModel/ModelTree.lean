import ApiModel.Document.Properties
import ApiModel.NameRegistry
import ApiModel.Naming
import ApiModel.Note
import ApiModel.Reachability
/-!
The forest of named schemas. Reachable shared schemas are roots under their declared names; an
anonymous object, enumeration or union goes under the object that owns it as a property or as the
element of a property's arrays and maps, and becomes a root named by its path where no object owns
it.
-/

namespace ApiModel

structure ModelNode where
  id : Nat
  names : TypeNames
  kind : SchemaClass
  parent : Option Nat
  children : List Nat
  deriving DecidableEq, Repr

structure Positions {α : Type} [DecidableEq α] (table : OrderedMap α Nat) (keys : List α) :
    Prop where
  sound : ∀ key index, table.get? key = some index → keys[index]? = some key
  complete : ∀ key ∈ keys, ∃ index, table.get? key = some index

namespace Positions

variable {α : Type} [DecidableEq α] {table : OrderedMap α Nat} {keys : List α}

theorem nil : Positions ([] : OrderedMap α Nat) [] := ⟨by simp, by simp⟩

theorem push (h : Positions table keys) (key : α) :
    Positions (table.insert key keys.length) (keys ++ [key]) where
  sound k index hk := by
    by_cases hkey : k = key
    · subst hkey
      rw [OrderedMap.get?_insert_self] at hk
      rw [← Option.some.inj hk, List.getElem?_concat_length]
    · rw [OrderedMap.get?_insert_of_ne _ _ hkey] at hk
      have hold := h.sound k index hk
      rw [List.getElem?_append_left (List.getElem?_eq_some_iff.1 hold).1, hold]
  complete k hk := by
    by_cases hkey : k = key
    · exact ⟨keys.length, by rw [hkey, OrderedMap.get?_insert_self]⟩
    · have hold : k ∈ keys := by simpa [hkey] using hk
      obtain ⟨index, hindex⟩ := h.complete k hold
      exact ⟨index, by rw [OrderedMap.get?_insert_of_ne _ _ hkey, hindex]⟩

end Positions

structure ModelTree where
  nodes : List ModelNode := []
  roots : List Nat := []
  registry : NameRegistry := {}
  bySchema : OrderedMap Nat Nat := []
  byNames : OrderedMap TypeNames Nat := []
  notes : List Note := []
  schemas_placed : Positions bySchema (nodes.map (·.id)) := by exact .nil
  names_placed : Positions byNames (nodes.map (·.names)) := by exact .nil
  deriving Repr

theorem ModelNode.map_modify {α : Type} {f : ModelNode → α} {change : ModelNode → ModelNode}
    (h : ∀ n, f (change n) = f n) (nodes : List ModelNode) (index : Nat) :
    (nodes.modify index change).map f = nodes.map f := by
  refine List.ext_getElem? fun i => ?_
  simp only [List.getElem?_map, List.getElem?_modify]
  split
  · cases nodes[i]? <;> simp [h]
  · cases nodes[i]? <;> rfl

namespace ModelTree

def node? (t : ModelTree) (index : Nat) : Option ModelNode := t.nodes[index]?

def namesAt (t : ModelTree) (index : Nat) : TypeNames :=
  match t.node? index with
  | some n => n.names
  | none => ⟨[]⟩

def parent? (t : ModelTree) (index : Nat) : Option Nat := (t.node? index).bind (·.parent)

def indexOf? (t : ModelTree) (id : Nat) : Option Nat := t.bySchema.get? id

def find? (t : ModelTree) (names : TypeNames) : Option Nat := t.byNames.get? names

def contains (t : ModelTree) (id : Nat) : Bool := t.bySchema.contains id

def names? (t : ModelTree) (id : Nat) : Option TypeNames := (t.indexOf? id).map t.namesAt

def note (t : ModelTree) (n : Note) : ModelTree := { t with notes := t.notes ++ [n] }

def lineage (t : ModelTree) : Nat → Nat → List Nat
  | 0, _ => []
  | steps + 1, index =>
      index :: match t.parent? index with
        | some parent => t.lineage steps parent
        | none => []

/-- Whether a node is another or lies above it. A forest has no longer lineage than nodes. -/
def isAncestor (t : ModelTree) (ancestor index : Nat) : Bool :=
  ancestor ∈ t.lineage (t.nodes.length + 1) index

def hang (t : ModelTree) (index parent : Nat) : ModelTree :=
  { t with
    roots := t.roots.filter (· != index)
    nodes := (t.nodes.modify index fun n => { n with parent := some parent }).modify parent
      fun n => { n with children := n.children ++ [index] }
    schemas_placed := by simpa [ModelNode.map_modify] using t.schemas_placed
    names_placed := by simpa [ModelNode.map_modify] using t.names_placed }

def moveUnder (t : ModelTree) (index parent : Nat) : Except ConversionError ModelTree :=
  let names := t.namesAt index
  if (t.parent? index).isSome then .error (.broken (.violated (.alreadyNested names)))
  else if t.isAncestor index parent then .error (.broken (.violated (.underDescendant names)))
  else .ok (t.hang index parent)

def place (t : ModelTree) (id : Nat) (candidate : TypeNames) (kind : SchemaClass)
    (parent : Option Nat) : TypeNames × ModelTree :=
  let (names, registry) := t.registry.claim candidate
  let index := t.nodes.length
  (names, {
    registry
    nodes := (match parent with
      | some p => t.nodes.modify p fun n => { n with children := n.children ++ [index] }
      | none => t.nodes) ++ [⟨id, names, kind, parent, []⟩]
    roots := match parent with
      | some _ => t.roots
      | none => t.roots ++ [index]
    bySchema := t.bySchema.insert id index
    byNames := t.byNames.insert names index
    notes := if names = candidate then t.notes else t.notes ++ [.renamed candidate names]
    schemas_placed := by
      have h := t.schemas_placed.push id
      rw [List.length_map] at h
      cases parent with
      | none => simpa using h
      | some p => simpa [ModelNode.map_modify] using h
    names_placed := by
      have h := t.names_placed.push names
      rw [List.length_map] at h
      cases parent with
      | none => simpa using h
      | some p => simpa [ModelNode.map_modify] using h })

end ModelTree

namespace Arena

def unionMembers (a : Arena) (id : Nat) : List { member : Nat // id < member ∧ member < a.size } :=
  (a.node id).oneOf.attach.map fun ⟨member, h⟩ =>
    ⟨member, a.child_bounds (SchemaNode.mem_childIds_of_mem_oneOf h)⟩

def element? (a : Arena) (id : Nat) : Option Nat :=
  let n := a.node id
  if n.reference.isSome then none else n.values.or n.items

theorem element?_bounds {a : Arena} {id element : Nat} (h : a.element? id = some element) :
    id < element ∧ element < a.size := by
  simp only [element?] at h
  split at h
  · simp at h
  · rcases Option.or_eq_some_iff.1 h with h | ⟨_, h⟩
    · exact a.child_bounds (SchemaNode.mem_childIds_of_child? h)
    · exact a.child_bounds (SchemaNode.mem_childIds_of_child? h)

/-- The segment of `target` below a property: one `Item` for each array or map on the way. -/
def segmentBelow? (a : Arena) (target : Nat) (segment : String) (current : Nat) : Option String :=
  if current = target then some segment
  else match _found : a.element? current with
    | some element => a.segmentBelow? target (segment ++ "Item") element
    | none => none
termination_by a.size - current
decreasing_by
  have := element?_bounds _found
  omega

def ownedSegment? (a : Arena) (owner target : Nat) : Option String :=
  (a.ownProperties owner).findSome? fun (name, property) =>
    a.segmentBelow? target (Naming.typeName name) property

end Arena

namespace ModelTree

def add (d : Document) (id : Nat) (candidate : TypeNames) (kind : SchemaClass)
    (parent : Option Nat) (t : ModelTree) : Except ConversionError ModelTree :=
  let index := t.nodes.length
  let (names, placed) := t.place id candidate kind parent
  if kind = .sealed then
    (d.arena.unionMembers id).zipIdx.foldlM (fun t (member, number) => do
      let n := d.node member.1
      if n.reference.isSome || t.contains member.1 then return t
      else
        let kind ← classify n
        add d member.1 (names.child ("OneOf" ++ toString number)) kind (some index) t) placed
  else .ok placed
termination_by d.arena.size - id
decreasing_by
  have := member.2
  omega

def owner? (t : ModelTree) (d : Document) (id : Nat) : Option (Nat × String) :=
  t.nodes.zipIdx.findSome? fun (n, index) =>
    if n.kind = .object then (d.arena.ownedSegment? n.id id).map (index, ·) else none

def addComponents (d : Document) (r : Reachability) (t : ModelTree) :
    Except ConversionError ModelTree :=
  d.schemas.foldlM (fun t (name, id) =>
    match r.entry? id with
    | some entry =>
        if t.contains id then .ok t
        else t.add d id (.root (Naming.typeName name)) entry.kind none
    | none => .ok (t.note (.dropped name))) t

def isUnplaced (t : ModelTree) (entry : ReachableSchema) : Bool :=
  entry.kind.needsName && !t.contains entry.id

def adopt (d : Document) (t : ModelTree) (entry : ReachableSchema) :
    Except ConversionError ModelTree :=
  if t.isUnplaced entry then
    match t.owner? d entry.id with
    | some (parent, segment) =>
        t.add d entry.id ((t.namesAt parent).child segment) entry.kind (some parent)
    | none => .ok t
  else .ok t

def promote (d : Document) (t : ModelTree) (entry : ReachableSchema) :
    Except ConversionError ModelTree :=
  let name := Naming.typeName (" ".intercalate entry.path)
  (t.note (.promoted (d.node entry.id).location name)).add d entry.id (.root name) entry.kind none

/-- Adopts entries until a round places none, then promotes one and goes on. Every round but the
last places an entry, so one round more than there are entries is enough. -/
def settle (d : Document) (entries : List ReachableSchema) :
    Nat → ModelTree → Except ConversionError ModelTree
  | 0, t => .ok t
  | rounds + 1, t => do
      let adopted ← entries.foldlM (adopt d) t
      if t.nodes.length < adopted.nodes.length then settle d entries rounds adopted
      else match entries.find? adopted.isUnplaced with
        | some entry => settle d entries rounds (← adopted.promote d entry)
        | none => return adopted

def build (d : Document) (r : Reachability) : Except ConversionError ModelTree := do
  settle d r.entries (r.entries.length + 1) (← addComponents d r {})

end ModelTree

end ApiModel
