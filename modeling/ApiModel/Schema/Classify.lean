import ApiModel.Error
import ApiModel.Schema.Arena

namespace ApiModel

def knownTypes : List String := ["object", "array", "string", "integer", "number", "boolean"]

def SchemaNode.mainType (n : SchemaNode) : String :=
  (n.types.find? knownTypes.contains).getD "object"

def SchemaNode.isMap (n : SchemaNode) : Bool := n.values.isSome || n.openValues == some true

def stringType : Option String → PrimitiveType
  | some "date" => .date
  | some "time" => .time
  | some "date-time" => .dateTime
  | some "byte" | some "base64" => .base64
  | some "uuid" => .uuid
  | _ => .string

def numberType? (fallback : PrimitiveType) : Option String → Option PrimitiveType
  | none => some fallback
  | some "int32" => some .int32
  | some "int64" => some .int64
  | some "float" => some .float
  | some "double" => some .double
  | some _ => none

def SchemaNode.numberClass (n : SchemaNode) (fallback : PrimitiveType) :
    Except ConversionError SchemaClass :=
  match numberType? fallback n.format with
  | some type => .ok (.primitive type)
  | none => .error (.unsupported n.location (.format n.mainType (n.format.getD "")))

def SchemaNode.objectClass (n : SchemaNode) : SchemaClass :=
  if !n.oneOf.isEmpty then .sealed
  else if !n.merged.isEmpty || !n.properties.isEmpty then .object
  else .raw

def classify (n : SchemaNode) : Except ConversionError SchemaClass :=
  if n.reference.isSome then .ok .ref
  else if n.isMap then .ok .map
  else match n.mainType with
    | "string" =>
        if n.constants.isEmpty then .ok (.primitive (stringType n.format)) else .ok .enum
    | "boolean" => .ok (.primitive .boolean)
    | "integer" => n.numberClass .int32
    | "number" => n.numberClass .float
    | "array" => .ok .array
    | _ => .ok n.objectClass

end ApiModel
