import ApiModel.Http
import ApiModel.Object.Info
import ApiModel.Object.Security
import ApiModel.Object.Server
import ApiModel.Options
import ApiModel.Schema.Arena

namespace ApiModel

structure Parameter where
  name : String
  location : ParameterLocation
  required : Option Bool
  description : Option String
  schema : Option Nat
  deriving DecidableEq, Repr

abbrev Content := OrderedMap String (Option Nat)

structure RequestBody where
  description : Option String
  required : Option Bool
  content : Content
  deriving DecidableEq, Repr

structure Header where
  description : Option String
  required : Option Bool
  schema : Option Nat
  deriving DecidableEq, Repr

structure Response where
  description : Option String
  content : Content
  headers : OrderedMap String Header
  deriving DecidableEq, Repr

structure Operation where
  method : HttpMethod
  operationId : Option String
  tags : List String
  parameters : List Parameter
  requestBody : Option RequestBody
  responses : OrderedMap String Response
  deprecated : Bool
  security : Option (List SecurityRequirement)
  servers : Option (List Server)
  deriving DecidableEq, Repr

structure PathItem where
  path : String
  parameters : List Parameter
  operations : List Operation
  servers : Option (List Server)
  deriving DecidableEq, Repr

structure Document where
  openapi : String
  info : Info
  servers : List Server
  security : Option (List SecurityRequirement)
  paths : List PathItem
  schemas : OrderedMap String Nat
  securitySchemes : OrderedMap String SecuritySchemeObject
  arena : Arena

def Document.empty : Document := ⟨"", .empty, [], none, [], [], [], .empty⟩

namespace Operation

def key (op : Operation) (path : String) : String :=
  op.operationId.getD (op.method.verb ++ " " ++ path)

def fallbackTag : String := "default"

def effectiveTags (op : Operation) : List String :=
  if op.tags.isEmpty then [fallbackTag] else op.tags

def acceptedTags (op : Operation) (o : Options) : List String :=
  op.effectiveTags.filter o.acceptsTag

def isSelected (op : Operation) (o : Options) : Bool := op.effectiveTags.any o.acceptsTag

end Operation

def PathItem.selected (item : PathItem) (o : Options) : List Operation :=
  item.operations.filter (·.isSelected o)

end ApiModel
