import ApiModel.Document.Basic
import ApiModel.Document.Pointer
import ApiModel.Error
import ApiModel.Model.Basic
import ApiModel.Naming
import ApiModel.Note

namespace ApiModel

def SecuritySchemeObject.supportedType? (s : SecuritySchemeObject) : Option SecuritySchemeType :=
  match s.kind with
  | "apiKey" =>
      match s.location with
      | some "header" => some .header
      | some "query" => some .query
      | some "cookie" => some .cookie
      | _ => none
  | "http" =>
      match s.scheme.map fun name => String.ofList (name.toList.map Text.asciiLower) with
      | some "basic" => some .basic
      | some "bearer" => some .bearer
      | _ => none
  | _ => none

def SecuritySchemeType.isKey : SecuritySchemeType → Bool
  | .header | .query | .cookie => true
  | .basic | .bearer => false

def SecurityScheme.ofObject? (rawName : String) (s : SecuritySchemeObject) :
    Option SecurityScheme :=
  s.supportedType?.map fun type =>
    { name := Naming.typeName rawName
      rawName, type
      propertyName := if type.isKey then s.name else none
      description := s.description }

namespace Document

def supportedSchemes (d : Document) : List SecurityScheme :=
  d.securitySchemes.filterMap fun (name, s) => SecurityScheme.ofObject? name s

def skippedSchemes (d : Document) : List Note :=
  (d.securitySchemes.filter fun (_, s) => s.supportedType?.isNone).map fun (name, _) =>
    .skippedScheme name

def requirementsOf (d : Document) (op : Operation) : List SecurityRequirement :=
  (op.security.or d.security).getD []

def requiredNames (requirements : List SecurityRequirement) : OrderedSet String :=
  .ofList (requirements.flatMap OrderedMap.keys)

def securityId (d : Document) (location name : String) : Except ConversionError String :=
  match d.securitySchemes.get? name with
  | none => .error (.unresolved name location)
  | some s =>
      if s.supportedType?.isNone then
        .error (.unsupported location (.securityScheme name s.kind))
      else .ok (Naming.typeName name)

def securityLocation (path : String) (op : Operation) : String :=
  "#/paths/" ++ escapeSegment path ++ "/" ++ op.method.key ++ "/security"

def securityIds (d : Document) (path : String) (op : Operation) :
    Except ConversionError (List String) :=
  (requiredNames (d.requirementsOf op)).mapM (d.securityId (securityLocation path op))

end Document

end ApiModel
