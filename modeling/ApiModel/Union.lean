import ApiModel.Model.Basic
import ApiModel.ModelTree

namespace ApiModel

structure UnionShape where
  discriminator : String
  variants : List SealedVariant
  deriving DecidableEq, Repr

/-- `shapes` belong to positions in the model tree; `serialNames` holds the tags of referenced
variants and `interfaces` the unions of every variant. -/
structure Unions where
  shapes : OrderedMap Nat UnionShape := []
  serialNames : OrderedMap TypeNames String := []
  interfaces : OrderedMap TypeNames (List TypeNames) := []
  deriving Repr

structure Placed where
  tree : ModelTree := {}
  unions : Unions := {}
  deriving Repr

namespace ModelTree

def namedReference (t : ModelTree) (d : Document) (reference location : String) :
    Except ConversionError TypeNames := do
  let links ← d.links reference location
  match links.findSome? fun link => t.names? link.id with
  | some names => return names
  | none =>
      let last := (links.getLast?.map (·.reference)).getD reference
      .error (.broken (.violated (.unnamedReference last location)))

def nestVariant (t : ModelTree) (variant : TypeNames) (union : Nat) :
    Except ConversionError ModelTree :=
  match t.find? variant with
  | none => .error (.broken (.violated (.unplacedVariant variant)))
  | some index =>
      if (t.parent? index).isSome || t.isAncestor index union then .ok t
      else (t.note (.nested variant (t.namesAt union))).moveUnder index union

end ModelTree

namespace Unions

def defaultDiscriminator : String := "type"

def discriminatorOf (n : SchemaNode) : String :=
  (n.discriminator.bind (·.property)).getD defaultDiscriminator

def mappingOf (n : SchemaNode) : OrderedMap String String :=
  match n.discriminator with
  | some d => d.mapping
  | none => []

def pointsAt (target reference declared : String) : Bool :=
  target == reference || target == declared || Document.schemaName? target == some declared

def mappingTag? (mapping : OrderedMap String String) (reference declared : String) :
    Option String :=
  (mapping.find? fun (_, target) => pointsAt target reference declared).map (·.1)

def variant (d : Document) (union : Nat) (mapping : OrderedMap String String) (p : Placed)
    (member : Nat) : Except ConversionError (SealedVariant × Placed) := do
  let n := d.node member
  match n.reference with
  | some reference =>
      let names ← p.tree.namedReference d reference n.location
      match Document.schemaName? reference with
      | none => .error (.unresolved reference n.location)
      | some declared =>
          let tag := (mappingTag? mapping reference declared).getD declared
          let serialNames := p.unions.serialNames.insertNew names tag
          let tree ← p.tree.nestVariant names union
          return (⟨tag, names⟩, ⟨tree, { p.unions with serialNames }⟩)
  | none =>
      match p.tree.names? member with
      | some names => return (⟨names.joined, names⟩, p)
      | none => .error (.broken (.violated (.unnamedMember n.location (p.tree.namesAt union))))

def addMember (d : Document) (union : Nat) (mapping : OrderedMap String String)
    (acc : List SealedVariant × Placed) (member : Nat) :
    Except ConversionError (List SealedVariant × Placed) := do
  let (variants, p) := acc
  let names := p.tree.namesAt union
  let (v, p) ← variant d union mapping p member
  if variants.any (·.tag == v.tag) then .error (.duplicateTag names.joined v.tag)
  else
    let interfaces := p.unions.interfaces.alter v.names [] (· ++ [names])
    return (variants ++ [v], { p with unions := { p.unions with interfaces } })

def resolveOne (d : Document) (p : Placed) (union : Nat × Nat) :
    Except ConversionError Placed := do
  let (index, id) := union
  let n := d.node id
  let (variants, p) ← n.oneOf.foldlM (addMember d index (mappingOf n)) ([], p)
  let shapes := p.unions.shapes.insert index ⟨discriminatorOf n, variants⟩
  return { p with unions := { p.unions with shapes } }

def placedIn (t : ModelTree) : List (Nat × Nat) :=
  t.nodes.zipIdx.filterMap fun (n, index) =>
    if n.kind = .sealed then some (index, n.id) else none

def resolve (d : Document) (t : ModelTree) : Except ConversionError Placed :=
  (placedIn t).foldlM (resolveOne d) ⟨t, {}⟩

end Unions

end ApiModel
