import ApiModel.Json.Printer
import ApiModel.OrderedSet
import ApiModel.Text.Quoted

namespace ApiModel

inductive DecodeError where
  | wrongType (found : Json) (expected : String)
  | missingField (name : String)
  | noVariant (name : String)
  | tooShort (length : Nat) (record : String) (fields : Nat)
  | tooLong (length : Nat)
  deriving Repr

namespace DecodeError

def describe : Json → String
  | .null => "null"
  | .bool b => "boolean \x60" ++ (if b then "true" else "false") ++ "\x60"
  | .number (.whole n) => "integer \x60" ++ toString n ++ "\x60"
  | .number (.real x) => "floating point \x60" ++ realText x ++ "\x60"
  | .string s => "string " ++ Text.quoted s
  | .array _ => "sequence"
  | .object _ => "map"

def message : DecodeError → String
  | .wrongType found expected => "invalid type: " ++ describe found ++ ", expected " ++ expected
  | .missingField name => "missing field \x60" ++ name ++ "\x60"
  | .noVariant name => "data did not match any variant of untagged enum " ++ name
  | .tooShort length record fields =>
      "invalid length " ++ toString length ++ ", expected struct " ++ record ++ " with " ++
        toString fields ++ (if fields = 1 then " element" else " elements")
  | .tooLong length =>
      "invalid length " ++ toString length ++ ", expected fewer elements in array"

end DecodeError

abbrev Decoder (α : Type) := Json → Except DecodeError α

namespace Decoder

def any : Decoder Json := .ok

def string : Decoder String
  | .string s => .ok s
  | other => .error (.wrongType other "a string")

def bool : Decoder Bool
  | .bool b => .ok b
  | other => .error (.wrongType other "a boolean")

def list {α : Type} (item : Decoder α) : Decoder (List α)
  | .array items => items.mapM item
  | other => .error (.wrongType other "a sequence")

def distinctStrings : Decoder (OrderedSet String)
  | .array items => (items.mapM string).map OrderedSet.ofList
  | other => .error (.wrongType other "a set")

def map {α : Type} (value : Decoder α) : Decoder (OrderedMap String α)
  | .object entries => entries.mapM fun (key, j) => do return (key, ← value j)
  | other => .error (.wrongType other "a map")

def option {α : Type} (value : Decoder α) : Decoder (Option α)
  | .null => .ok none
  | other => (value other).map some

def orElse {α : Type} (name : String) (first second : Decoder α) : Decoder α := fun j =>
  match first j with
  | .ok a => .ok a
  | .error _ =>
      match second j with
      | .ok a => .ok a
      | .error _ => .error (.noVariant name)

end Decoder

/-- How much of a field there must be: it may be missing anywhere, it may be missing in an object
only, or it must be there. -/
inductive Presence where
  | lenient
  | optional
  | mandatory
  deriving DecidableEq, Repr

structure Field (σ : Type) where
  key : String
  presence : Presence
  read : Json → σ → Except DecodeError σ

namespace Field

variable {σ α : Type}

def mandatory (key : String) (value : Decoder α) (set : α → σ → σ) : Field σ :=
  ⟨key, .mandatory, fun j s => (value j).map (set · s)⟩

def optional (key : String) (value : Decoder α) (set : Option α → σ → σ) : Field σ :=
  ⟨key, .optional, fun j s => (value.option j).map (set · s)⟩

def lenient (key : String) (value : Decoder α) (set : α → σ → σ) : Field σ :=
  ⟨key, .lenient, fun j s => (value j).map (set · s)⟩

end Field

namespace Decoder

variable {σ : Type}

def readEntries (fields : List (Field σ)) : List (String × Json) → σ → Except DecodeError σ
  | [], s => .ok s
  | (key, j) :: rest, s =>
      match fields.find? (·.key == key) with
      | some field => do readEntries fields rest (← field.read j s)
      | none => readEntries fields rest s

def readItems (name : String) (arity : Nat) (items : List Json) :
    Nat → List (Field σ) → List Json → σ → Except DecodeError σ
  | _, [], [], s => .ok s
  | _, [], _ :: _, _ => .error (.tooLong items.length)
  | place, field :: fields, [], s =>
      if field.presence = .lenient then readItems name arity items (place + 1) fields [] s
      else .error (.tooShort place name arity)
  | place, field :: fields, j :: rest, s => do
      readItems name arity items (place + 1) fields rest (← field.read j s)

def record (name : String) (fields : List (Field σ)) (blank : σ) : Decoder σ
  | .object entries => do
      let s ← readEntries fields entries blank
      let missing := fields.find? fun field =>
        field.presence == .mandatory && !entries.any (·.1 == field.key)
      match missing with
      | some field => .error (.missingField field.key)
      | none => .ok s
  | .array items => readItems name fields.length items 0 fields items blank
  | other => .error (.wrongType other ("struct " ++ name))

end Decoder

end ApiModel
