import ApiModel.Json.Basic
import ApiModel.Model.Basic

namespace ApiModel

def TypeNames.toJson (n : TypeNames) : Json := .string n.dotted

def PrimitiveType.toJson (t : PrimitiveType) : Json := .string t.name

def SimpleType.toJson : SimpleType → Json
  | .any => .object [("type", .string "Any")]
  | .raw => .object [("type", .string "Raw")]
  | .unit => .object [("type", .string "Unit")]
  | .ref names => .object [("type", .string "Ref"), ("typeNames", names.toJson)]
  | .primitive type =>
      .object [("type", .string "Primitive"), ("primitive", type.toJson)]
  | .array items nullable =>
      .object [("type", .string "Array"), ("items", items.toJson),
        ("itemsNullable", .bool nullable)]
  | .map items nullable =>
      .object [("type", .string "Map"), ("items", items.toJson),
        ("itemsNullable", .bool nullable)]

def EnumConstant.toJson (e : EnumConstant) : Json :=
  .object [("name", .string e.name), ("value", .string e.value)]

def SealedVariant.toJson (v : SealedVariant) : Json :=
  .object [("tag", .string v.tag), ("typeNames", v.names.toJson)]

def Property.toJson (p : Property) : Json :=
  .object [
    ("name", .string p.name),
    ("rawName", .string p.rawName),
    ("deprecated", .bool p.deprecated),
    ("nullable", .bool p.nullable),
    ("type", p.type.toJson),
    ("description", .stringOrNull p.description)]

def SchemaShape.toFields (children : Json) : SchemaShape → List (String × Json)
  | .primitive type => [("kind", .string "Primitive"), ("subtype", type.toJson)]
  | .enum constants =>
      [("kind", .string "Enum"), ("constants", .array (constants.map EnumConstant.toJson))]
  | .array items nullable =>
      [("kind", .string "Array"), ("items", items.toJson), ("itemsNullable", .bool nullable)]
  | .map items nullable =>
      [("kind", .string "Map"), ("items", items.toJson), ("itemsNullable", .bool nullable)]
  | .object properties =>
      [("kind", .string "Object"), ("properties", .array (properties.map Property.toJson)),
        ("children", children)]
  | .sealed discriminator variants =>
      [("kind", .string "Sealed"), ("discriminatorField", .string discriminator),
        ("variants", .array (variants.map SealedVariant.toJson)), ("children", children)]
  | .ref target => [("kind", .string "Ref"), ("target", target.toJson)]
  | .raw => [("kind", .string "Raw")]

namespace NamedSchema

mutual

def toJson : NamedSchema → Json
  | .mk names deprecated description shape children =>
      .object ([
        ("typeNames", names.toJson),
        ("deprecated", .bool deprecated),
        ("description", .stringOrNull description)] ++
        shape.toFields (.array (forestToJson children)))

def forestToJson : List NamedSchema → List Json
  | [] => []
  | schema :: rest => schema.toJson :: forestToJson rest

end

end NamedSchema

def SpecParameter.toJson (p : SpecParameter) : Json :=
  .object [
    ("name", .string p.name),
    ("rawName", .string p.rawName),
    ("location", .string p.location.name),
    ("schema", p.type.toJson),
    ("nullable", .bool p.nullable),
    ("description", .stringOrNull p.description)]

def Payload.toJson (p : Payload) : Json :=
  .object [
    ("type", p.type.toJson),
    ("nullable", .bool p.nullable),
    ("description", .stringOrNull p.description)]

def RequestType.name : RequestType → String
  | .default => "Default"
  | .multipart => "Multipart"
  | .urlEncoded => "UrlEncoded"
  | .unknown => "Unknown"

def SpecOperation.toJson (op : SpecOperation) : Json :=
  .object [
    ("name", .string op.name),
    ("method", .string op.method.verb),
    ("path", .string op.path),
    ("requestType", .string op.requestType.name),
    ("parameters", .array (op.parameters.map SpecParameter.toJson)),
    ("body", .ofOption Payload.toJson op.body),
    ("response", op.response.toJson),
    ("deprecated", .bool op.deprecated),
    ("securityIds", .strings op.securityIds),
    ("serverOverride", .stringOrNull op.serverOverride)]

def SpecApi.toJson (api : SpecApi) : Json :=
  .object [
    ("name", .string api.name),
    ("operations", .array (api.operations.map SpecOperation.toJson))]

def SecuritySchemeType.name : SecuritySchemeType → String
  | .basic => "Basic"
  | .bearer => "Bearer"
  | .header => "Header"
  | .query => "Query"
  | .cookie => "Cookie"

def SecurityScheme.toJson (s : SecurityScheme) : Json :=
  .object [
    ("name", .string s.name),
    ("rawName", .string s.rawName),
    ("propertyName", .stringOrNull s.propertyName),
    ("type", .string s.type.name),
    ("description", .stringOrNull s.description)]

def Metadata.toJson (m : Metadata) : Json :=
  .object [
    ("title", .string m.title),
    ("description", .stringOrNull m.description),
    ("version", .string m.version),
    ("servers", .strings m.servers),
    ("packageName", .string m.packageName),
    ("createdAt", .string m.createdAt.toInternet)]

def namedTable {α : Type} (value : α → Json) (m : OrderedMap TypeNames α) : Json :=
  .object (m.map fun (names, a) => (names.dotted, value a))

def SpecModel.toJson (m : SpecModel) : Json :=
  .object [
    ("metadata", m.metadata.toJson),
    ("fileHeader", .string m.fileHeader),
    ("apis", .array (m.apis.map SpecApi.toJson)),
    ("schemas", .array (NamedSchema.forestToJson m.schemas)),
    ("securitySchemes", .array (m.securitySchemes.map SecurityScheme.toJson)),
    ("modelSerialNames", namedTable .string m.serialNames),
    ("modelInterfaces",
      namedTable (fun unions => .array (unions.map TypeNames.toJson)) m.interfaces)]

end ApiModel
