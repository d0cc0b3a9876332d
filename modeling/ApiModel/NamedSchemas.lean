import ApiModel.TypeUsage

namespace ApiModel.Context

def constantName (value : String) : String :=
  let name := Naming.typeName value
  if name.isEmpty then "Empty" else name

def enumConstants (n : SchemaNode) : List EnumConstant :=
  let given := n.extensions.constantNames.filter (·.length == n.constants.length)
  n.constants.zipIdx.filterMap fun (j, place) =>
    if j.isNull then none
    else
      let value := j.plainText
      let name := match given with
        | some names => names[place]?.getD ""
        | none => constantName value
      some ⟨name, value⟩

def property (c : Context) (required : List String) (entry : String × Nat) :
    Except ConversionError Property := do
  let (rawName, id) := entry
  let n := c.node id
  let type ← c.typeOf id
  return {
    name := Naming.fieldName rawName
    rawName, type
    deprecated := n.deprecated
    nullable := isNullable (some (required.contains rawName)) n.nullable
    description := n.fullDescription }

def properties (c : Context) (id : Nat) : Except ConversionError (List Property) :=
  let merged := c.document.resolveProperties id
  merged.properties.mapM (c.property merged.required)

def shapeOf (c : Context) (index : Nat) (m : ModelNode) : Except ConversionError SchemaShape := do
  let n := c.node m.id
  match m.kind with
  | .primitive type => return .primitive type
  | .enum => return .enum (enumConstants n)
  | .array =>
      let (items, nullable) ← c.elementType n.items
      return .array items nullable
  | .map =>
      let (items, nullable) ← c.elementType n.values
      return .map items nullable
  | .object => return .object (← c.properties m.id)
  | .sealed =>
      match c.unions.shapes.get? index with
      | some u => return .sealed u.discriminator u.variants
      | none => .error (.broken (.violated (.unresolvedUnion m.names)))
  | .ref =>
      match n.reference with
      | some reference => return .ref (← c.namedReference reference n.location)
      | none => .error (.broken (.violated (.aliasWithoutTarget n.location)))
  | .raw => return .raw

def namedSchema (c : Context) : Nat → Nat → Except ConversionError NamedSchema
  | 0, index => .error (.broken (.violated (.underDescendant (c.tree.namesAt index))))
  | depth + 1, index =>
      match c.tree.node? index with
      | none => .error (.broken (.violated (.unplacedVariant ⟨[]⟩)))
      | some m => do
          let children ← m.children.mapM (c.namedSchema depth)
          let shape ← c.shapeOf index m
          if children.isEmpty || shape.holdsChildren then
            let n := c.node m.id
            return .mk m.names n.deprecated n.fullDescription shape children
          else .error (.broken (.violated (.cannotNest m.names)))

/-- All roots with what is below them. A forest has no more levels than nodes. -/
def namedSchemas (c : Context) : Except ConversionError (List NamedSchema) :=
  c.tree.roots.mapM (c.namedSchema (c.tree.nodes.length + 1))

end ApiModel.Context
