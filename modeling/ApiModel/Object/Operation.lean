import ApiModel.Object.Security
import ApiModel.Object.Server

namespace ApiModel

inductive OrReference (α : Type) where
  | reference (target : String)
  | inPlace (part : α)
  deriving Repr

structure MediaTypeObject where
  schema : Option Json
  deriving Repr

abbrev ContentObject := OrderedMap String MediaTypeObject

structure ParameterObject where
  name : String
  location : String
  description : Option String
  required : Option Bool
  schema : Option Json
  content : Option ContentObject
  deriving Repr

structure RequestBodyObject where
  description : Option String
  required : Option Bool
  content : ContentObject
  deriving Repr

structure HeaderObject where
  description : Option String
  required : Option Bool
  schema : Option Json
  content : Option ContentObject
  deriving Repr

structure ResponseObject where
  description : Option String
  content : ContentObject
  headers : OrderedMap String (OrReference HeaderObject)
  deriving Repr

structure OperationObject where
  tags : List String
  operationId : Option String
  parameters : List (OrReference ParameterObject)
  requestBody : Option (OrReference RequestBodyObject)
  responses : OrderedMap String (OrReference ResponseObject)
  deprecated : Option Bool
  security : Option (List SecurityRequirement)
  servers : Option (List Server)
  deriving Repr

structure PathItemObject where
  parameters : List (OrReference ParameterObject)
  servers : Option (List Server)
  deriving Repr

def decodeReference : Decoder String :=
  .record "Ref"
    [ .mandatory "$ref" .string fun v _ => v,
      .lenient "description" .string fun _ target => target,
      .lenient "summary" .string fun _ target => target ]
    ""

def OrReference.decode {α : Type} (part : Decoder α) : Decoder (OrReference α) :=
  .orElse "RefOr" (fun j => (decodeReference j).map .reference) fun j => (part j).map .inPlace

def MediaTypeObject.decode : Decoder MediaTypeObject :=
  .record "ShimMediaType"
    [ .optional "schema" .any fun v m => { m with schema := v } ]
    ⟨none⟩

def ContentObject.decode : Decoder ContentObject := .map MediaTypeObject.decode

def ParameterObject.decode : Decoder ParameterObject :=
  .record "ShimParameter"
    [ .mandatory "name" .string fun v p => { p with name := v },
      .mandatory "in" .string fun v p => { p with location := v },
      .optional "description" .string fun v p => { p with description := v },
      .optional "required" .bool fun v p => { p with required := v },
      .optional "schema" .any fun v p => { p with schema := v },
      .optional "content" ContentObject.decode fun v p => { p with content := v } ]
    ⟨"", "", none, none, none, none⟩

def RequestBodyObject.decode : Decoder RequestBodyObject :=
  .record "ShimRequestBody"
    [ .optional "description" .string fun v b => { b with description := v },
      .optional "required" .bool fun v b => { b with required := v },
      .lenient "content" ContentObject.decode fun v b => { b with content := v } ]
    ⟨none, none, []⟩

def HeaderObject.decode : Decoder HeaderObject :=
  .record "ShimHeader"
    [ .optional "description" .string fun v h => { h with description := v },
      .optional "required" .bool fun v h => { h with required := v },
      .optional "schema" .any fun v h => { h with schema := v },
      .optional "content" ContentObject.decode fun v h => { h with content := v } ]
    ⟨none, none, none, none⟩

def ResponseObject.decode : Decoder ResponseObject :=
  .record "ShimResponse"
    [ .optional "description" .string fun v r => { r with description := v },
      .lenient "content" ContentObject.decode fun v r => { r with content := v },
      .lenient "headers" (.map (OrReference.decode HeaderObject.decode))
        fun v r => { r with headers := v } ]
    ⟨none, [], []⟩

def OperationObject.empty : OperationObject := ⟨[], none, [], none, [], none, none, none⟩

def OperationObject.decode : Decoder OperationObject :=
  .record "ShimOperation"
    [ .lenient "tags" (.list .string) fun v o => { o with tags := v },
      .optional "operationId" .string fun v o => { o with operationId := v },
      .lenient "parameters" (.list (OrReference.decode ParameterObject.decode))
        fun v o => { o with parameters := v },
      .optional "requestBody" (OrReference.decode RequestBodyObject.decode)
        fun v o => { o with requestBody := v },
      .lenient "responses" (.map (OrReference.decode ResponseObject.decode))
        fun v o => { o with responses := v },
      .optional "deprecated" .bool fun v o => { o with deprecated := v },
      .optional "security" (.list SecurityRequirement.decode)
        fun v o => { o with security := v },
      .optional "servers" (.list Server.decode) fun v o => { o with servers := v } ]
    .empty

def PathItemObject.empty : PathItemObject := ⟨[], none⟩

def PathItemObject.decode : Decoder PathItemObject :=
  .record "ShimPathItem"
    [ .lenient "parameters" (.list (OrReference.decode ParameterObject.decode))
        fun v p => { p with parameters := v },
      .optional "servers" (.list Server.decode) fun v p => { p with servers := v } ]
    .empty

end ApiModel
