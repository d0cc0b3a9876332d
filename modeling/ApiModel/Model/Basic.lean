import ApiModel.Http
import ApiModel.Model.TypeNames
import ApiModel.OrderedMap
import ApiModel.Schema.Class
import ApiModel.Timestamp

namespace ApiModel

inductive SimpleType where
  | any
  | raw
  | unit
  | ref (names : TypeNames)
  | primitive (type : PrimitiveType)
  | array (items : SimpleType) (itemsNullable : Bool)
  | map (items : SimpleType) (itemsNullable : Bool)
  deriving DecidableEq, Repr

structure EnumConstant where
  name : String
  value : String
  deriving DecidableEq, Repr

structure SealedVariant where
  tag : String
  names : TypeNames
  deriving DecidableEq, Repr

structure Property where
  name : String
  rawName : String
  deprecated : Bool
  nullable : Bool
  type : SimpleType
  description : Option String
  deriving DecidableEq, Repr

inductive SchemaShape where
  | primitive (type : PrimitiveType)
  | enum (constants : List EnumConstant)
  | array (items : SimpleType) (itemsNullable : Bool)
  | map (items : SimpleType) (itemsNullable : Bool)
  | object (properties : List Property)
  | sealed (discriminator : String) (variants : List SealedVariant)
  | ref (target : TypeNames)
  | raw
  deriving DecidableEq, Repr

def SchemaShape.holdsChildren : SchemaShape → Bool
  | .object _ | .sealed _ _ => true
  | _ => false

inductive NamedSchema where
  | mk (names : TypeNames) (deprecated : Bool) (description : Option String)
      (shape : SchemaShape) (children : List NamedSchema)
  deriving Repr

namespace NamedSchema

def names : NamedSchema → TypeNames
  | .mk n _ _ _ _ => n

def shape : NamedSchema → SchemaShape
  | .mk _ _ _ s _ => s

def children : NamedSchema → List NamedSchema
  | .mk _ _ _ _ c => c

mutual

def walk : NamedSchema → List NamedSchema
  | .mk n d t s children => .mk n d t s children :: walkAll children

def walkAll : List NamedSchema → List NamedSchema
  | [] => []
  | schema :: rest => schema.walk ++ walkAll rest

end

end NamedSchema

structure SpecParameter where
  name : String
  rawName : String
  location : ParameterLocation
  type : SimpleType
  nullable : Bool
  description : Option String
  deriving DecidableEq, Repr

structure Payload where
  type : SimpleType
  nullable : Bool
  description : Option String
  deriving DecidableEq, Repr

inductive RequestType where
  | default
  | multipart
  | urlEncoded
  | unknown
  deriving DecidableEq, Repr

structure SpecOperation where
  name : String
  method : HttpMethod
  path : String
  requestType : RequestType
  parameters : List SpecParameter
  body : Option Payload
  response : Payload
  deprecated : Bool
  securityIds : List String
  serverOverride : Option String
  deriving DecidableEq, Repr

structure SpecApi where
  name : String
  operations : List SpecOperation
  deriving DecidableEq, Repr

inductive SecuritySchemeType where
  | basic
  | bearer
  | header
  | query
  | cookie
  deriving DecidableEq, Repr

structure SecurityScheme where
  name : String
  rawName : String
  propertyName : Option String
  type : SecuritySchemeType
  description : Option String
  deriving DecidableEq, Repr

structure Metadata where
  title : String
  description : Option String
  version : String
  servers : List String
  packageName : String
  createdAt : Timestamp
  deriving DecidableEq, Repr

structure SpecModel where
  metadata : Metadata
  fileHeader : String
  apis : List SpecApi
  schemas : List NamedSchema
  securitySchemes : List SecurityScheme
  serialNames : OrderedMap TypeNames String
  interfaces : OrderedMap TypeNames (List TypeNames)
  deriving Repr

namespace SpecModel

def allSchemas (m : SpecModel) : List NamedSchema := NamedSchema.walkAll m.schemas

def findSchema? (m : SpecModel) (names : TypeNames) : Option NamedSchema :=
  m.allSchemas.find? (·.names == names)

end SpecModel

/-- An explicit `nullable` wins; else only a required value is never null. -/
def isNullable (required nullable : Option Bool) : Bool :=
  !required.getD false || nullable.getD false

end ApiModel
