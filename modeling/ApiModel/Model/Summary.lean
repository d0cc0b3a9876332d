import ApiModel.Model.Basic

namespace ApiModel

def SchemaShape.isPrimitive : SchemaShape → Bool
  | .primitive _ => true
  | _ => false

def SchemaShape.isArray : SchemaShape → Bool
  | .array _ _ => true
  | _ => false

def SchemaShape.isMap : SchemaShape → Bool
  | .map _ _ => true
  | _ => false

def SchemaShape.isEnum : SchemaShape → Bool
  | .enum _ => true
  | _ => false

def SchemaShape.marker : SchemaShape → String
  | .sealed _ variants => " (oneOf: " ++ toString variants.length ++ ")"
  | _ => ""

def heading (title : String) : String := "### " ++ title ++ " ###"

namespace NamedSchema

mutual

def treeLines (depth : Nat) : NamedSchema → List String
  | .mk names _ _ shape children =>
      (String.ofList (List.replicate depth '\t') ++ names.last ++ shape.marker) ::
        forestLines (depth + 1) children

def forestLines (depth : Nat) : List NamedSchema → List String
  | [] => []
  | schema :: rest => schema.treeLines depth ++ forestLines depth rest

end

end NamedSchema

namespace SpecModel

def sectionLines (title : String) (lines : List String) : List String :=
  if lines.isEmpty then [] else heading title :: lines ++ [""]

def namesOf (m : SpecModel) (p : SchemaShape → Bool) : List String :=
  (m.allSchemas.filter (p ·.shape)).map fun schema => "\t" ++ schema.names.dotted

def objectTree (m : SpecModel) : List String :=
  NamedSchema.forestLines 1 (m.schemas.filter (·.shape.holdsChildren))

def operationLine (op : SpecOperation) : String :=
  "\t" ++ op.method.verb ++ " " ++ op.path ++ " -> " ++ op.name

def apiLines (api : SpecApi) : List String := api.name :: api.operations.map operationLine

def summaryLines (m : SpecModel) : List String :=
  sectionLines "Named Primitives" (m.namesOf (·.isPrimitive)) ++
    sectionLines "Named Arrays" (m.namesOf (·.isArray)) ++
    sectionLines "Named Maps" (m.namesOf (·.isMap)) ++
    sectionLines "Enums" (m.namesOf (·.isEnum)) ++
    sectionLines "Object Tree" m.objectTree ++
    heading "Selected APIs" :: m.apis.flatMap apiLines

def summary (m : SpecModel) : String := "\n".intercalate m.summaryLines ++ "\n"

end SpecModel

end ApiModel
