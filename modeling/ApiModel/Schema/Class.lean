namespace ApiModel

inductive PrimitiveType where
  | boolean
  | int32
  | int64
  | float
  | double
  | string
  | date
  | time
  | dateTime
  | base64
  | uuid
  deriving DecidableEq, Repr

namespace PrimitiveType

def name : PrimitiveType → String
  | .boolean => "Boolean"
  | .int32 => "Int32"
  | .int64 => "Int64"
  | .float => "Float"
  | .double => "Double"
  | .string => "String"
  | .date => "Date"
  | .time => "Time"
  | .dateTime => "DateTime"
  | .base64 => "Base64"
  | .uuid => "Uuid"

end PrimitiveType

inductive SchemaClass where
  | primitive (type : PrimitiveType)
  | enum
  | array
  | map
  | object
  | sealed
  | ref
  | raw
  deriving DecidableEq, Repr

namespace SchemaClass

def name : SchemaClass → String
  | .primitive _ => "Primitive"
  | .enum => "Enum"
  | .array => "Array"
  | .map => "Map"
  | .object => "Object"
  | .sealed => "Sealed"
  | .ref => "Ref"
  | .raw => "Raw"

def needsName : SchemaClass → Bool
  | .enum | .object | .sealed => true
  | _ => false

end SchemaClass

end ApiModel
