import ApiModel.Json.Basic
/-!
Raw schemas brought to one form, at every place where a schema may stand. A truth value becomes a
schema, a constant becomes an enumeration of one, a type list with null sets `nullable`, and a
choice between a reference and null becomes a nullable reference.
-/

namespace ApiModel

namespace Json

def inferredType? : Json → Option String
  | .string _ => some "string"
  | .bool _ => some "boolean"
  | .number (.whole _) => some "integer"
  | .number (.real _) => some "number"
  | .array _ => some "array"
  | .object _ => some "object"
  | .null => none

def isString (text : String) (j : Json) : Bool := j.string? == some text

def admitsNull (j : Json) : Bool :=
  match j.get? "type" with
  | some (.string type) => type == "null"
  | some (.array types) => types.any (isString "null")
  | _ => false

end Json

abbrev RawSchema := OrderedMap String Json

namespace RawSchema

def foldConstant (m : RawSchema) : RawSchema :=
  match m.get? "const" with
  | none => m
  | some j =>
      let m := (m.swapErase "const").insertNew "enum" (.array [j])
      match j.inferredType? with
      | some type => m.insertNew "type" (.string type)
      | none => m

def typesWithNull (m : RawSchema) : Bool :=
  match m.get? "type" with
  | some (.array types) => types.any (Json.isString "null")
  | _ => false

def markNullable (m : RawSchema) : RawSchema :=
  if m.typesWithNull then m.insertNew "nullable" (.bool true) else m

def nullableReference? (m : RawSchema) : Option String :=
  match m.get? "anyOf" with
  | some (.array [first, second]) =>
      let target (j : Json) := (j.get? "$ref").bind Json.string?
      if first.admitsNull || second.admitsNull then (target first).or (target second) else none
  | _ => none

def collapseReference (target : Option String) (m : RawSchema) : RawSchema :=
  match target with
  | none => m
  | some target =>
      ((m.swapErase "anyOf").insert "$ref" (.string target)).insert "nullable" (.bool true)

end RawSchema

namespace Json

mutual

/-- Brings a raw schema to normal form. Whether a choice collapses is decided on its members as
they were written. -/
def normalize : Json → Json
  | .bool true => .object []
  | .bool false => .object [("not", .object [])]
  | .object m =>
      let target := RawSchema.nullableReference? m
      let inner : RawSchema := normalizeEntries m
      .object (inner.foldConstant.markNullable.collapseReference target)
  | j => j

def normalizeEntries : List (String × Json) → List (String × Json)
  | [] => []
  | (key, j) :: rest =>
      let j := match key with
        | "items" | "not" => normalize j
        | "additionalProperties" => if j.isObject then normalize j else j
        | "properties" => normalizeValues j
        | "allOf" | "anyOf" | "oneOf" => normalizeMembers j
        | _ => j
      (key, j) :: normalizeEntries rest

def normalizeValues : Json → Json
  | .object entries => .object (normalizeEach entries)
  | j => j

def normalizeEach : List (String × Json) → List (String × Json)
  | [] => []
  | (key, j) :: rest => (key, normalize j) :: normalizeEach rest

def normalizeMembers : Json → Json
  | .array items => .array (normalizeItems items)
  | j => j

def normalizeItems : List Json → List Json
  | [] => []
  | j :: rest => normalize j :: normalizeItems rest

end

end Json

end ApiModel
