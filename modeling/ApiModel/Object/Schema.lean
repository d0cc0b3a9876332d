import ApiModel.Decode

namespace ApiModel

structure Discriminator where
  property : Option String
  mapping : OrderedMap String String
  deriving DecidableEq, Repr

def Discriminator.decode : Decoder Discriminator :=
  .record "ShimDiscriminator"
    [ .optional "propertyName" .string fun v d => { d with property := v },
      .lenient "mapping" (.map .string) fun v d => { d with mapping := v } ]
    ⟨none, []⟩

inductive Slot where
  | items
  | values
  | property (name : String)
  | allOf (place : Nat)
  | anyOf (place : Nat)
  | oneOf (place : Nat)
  | not
  deriving DecidableEq, Repr

structure Keywords where
  reference : Option String := none
  types : List String := []
  format : Option String := none
  nullable : Option Bool := none
  description : Option String := none
  deprecated : Bool := false
  constants : List Json := []
  openValues : Option Bool := none
  required : List String := []
  discriminator : Option Discriminator := none
  sample : Option Json := none
  samples : List Json := []
  deriving Repr

/-- The parts stand in the order in which they are numbered. -/
inductive SchemaObject where
  | mk (keywords : Keywords) (extensions : OrderedMap String Json)
      (parts : List (Slot × SchemaObject))
  deriving Repr

namespace SchemaObject

def keywords : SchemaObject → Keywords
  | .mk k _ _ => k

def extensions : SchemaObject → OrderedMap String Json
  | .mk _ e _ => e

def parts : SchemaObject → List (Slot × SchemaObject)
  | .mk _ _ p => p

structure Draft where
  keywords : Keywords := {}
  extensions : OrderedMap String Json := []
  items : Option SchemaObject := none
  values : Option SchemaObject := none
  properties : List (String × SchemaObject) := []
  allOf : List SchemaObject := []
  anyOf : List SchemaObject := []
  oneOf : List SchemaObject := []
  not : Option SchemaObject := none

def numbered (slot : Nat → Slot) (members : List SchemaObject) : List (Slot × SchemaObject) :=
  members.zipIdx.map fun (member, place) => (slot place, member)

def Draft.finish (d : Draft) : SchemaObject :=
  .mk d.keywords d.extensions
    (d.items.toList.map (Slot.items, ·) ++ d.values.toList.map (Slot.values, ·) ++
      d.properties.map (fun (name, s) => (Slot.property name, s)) ++
      numbered .allOf d.allOf ++ numbered .anyOf d.anyOf ++ numbered .oneOf d.oneOf ++
      d.not.toList.map (Slot.not, ·))

def decodeTypes : Decoder (List String) :=
  .orElse "ShimSchemaType" (fun j => (Decoder.string j).map fun name => [name]) (.list .string)

def samplesOf : Json → List Json
  | .null => []
  | .array items => items
  | other => [other]

def readKeyword? (key : String) : Option (Json → Keywords → Except DecodeError Keywords) :=
  match key with
  | "$ref" => some fun j k => do return { k with reference := ← Decoder.option .string j }
  | "type" => some fun j k => do
      return { k with types := (← Decoder.option decodeTypes j).getD [] }
  | "format" => some fun j k => do return { k with format := ← Decoder.option .string j }
  | "nullable" => some fun j k => do return { k with nullable := ← Decoder.option .bool j }
  | "description" => some fun j k => do
      return { k with description := ← Decoder.option .string j }
  | "deprecated" => some fun j k => do
      return { k with deprecated := (← Decoder.option .bool j).getD false }
  | "enum" => some fun j k => do
      return { k with constants := (← Decoder.option (.list .any) j).getD [] }
  | "required" => some fun j k => do
      return { k with required := (← Decoder.option (.list .string) j).getD [] }
  | "discriminator" => some fun j k => do
      return { k with discriminator := ← Decoder.option Discriminator.decode j }
  | "example" => some fun j k => do return { k with sample := ← Decoder.option .any j }
  | "examples" => some fun j k => .ok { k with samples := samplesOf j }
  | _ => none

mutual

def decode : Json → Except DecodeError SchemaObject
  | .object entries => (decodeEntries entries {}).map Draft.finish
  | other => .error (.wrongType other "struct ShimSchema")

def decodeEntries : List (String × Json) → Draft → Except DecodeError Draft
  | [], d => .ok d
  | (key, j) :: rest, d =>
      match readKeyword? key with
      | some read => do decodeEntries rest { d with keywords := ← read j d.keywords }
      | none =>
          match key with
          | "items" => do decodeEntries rest { d with items := ← decodeOption j }
          | "additionalProperties" =>
              match j with
              | .bool allowed =>
                  decodeEntries rest { d with keywords.openValues := some allowed }
              | j =>
                  match decodeOption j with
                  | .ok values => decodeEntries rest { d with values }
                  | .error _ => .error (.noVariant "ShimAdditionalProperties")
          | "properties" => do decodeEntries rest { d with properties := ← decodeProperties j }
          | "allOf" => do decodeEntries rest { d with allOf := ← decodeMembers j }
          | "anyOf" => do decodeEntries rest { d with anyOf := ← decodeMembers j }
          | "oneOf" => do decodeEntries rest { d with oneOf := ← decodeMembers j }
          | "not" => do decodeEntries rest { d with not := ← decodeOption j }
          | _ => decodeEntries rest { d with extensions := d.extensions.insert key j }

def decodeOption : Json → Except DecodeError (Option SchemaObject)
  | .null => .ok none
  | .object entries => (decodeEntries entries {}).map fun d => some d.finish
  | other => .error (.wrongType other "struct ShimSchema")

def decodeProperties : Json → Except DecodeError (List (String × SchemaObject))
  | .null => .ok []
  | .object entries => decodePropertyList entries
  | other => .error (.wrongType other "a map")

def decodePropertyList :
    List (String × Json) → Except DecodeError (List (String × SchemaObject))
  | [] => .ok []
  | (name, j) :: rest => do
      let s ← decode j
      return (name, s) :: (← decodePropertyList rest)

def decodeMembers : Json → Except DecodeError (List SchemaObject)
  | .null => .ok []
  | .array items => decodeMemberList items
  | other => .error (.wrongType other "a sequence")

def decodeMemberList : List Json → Except DecodeError (List SchemaObject)
  | [] => .ok []
  | j :: rest => do
      let s ← decode j
      return s :: (← decodeMemberList rest)

end

end SchemaObject

end ApiModel
