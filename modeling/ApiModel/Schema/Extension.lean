import ApiModel.Json.Printer

namespace ApiModel

structure Extensions where
  forced : Option Bool := none
  constantNames : Option (List String) := none
  deriving DecidableEq, Repr

namespace Extensions

def forcedKeys : List String := ["x-kgen-force-create", "x-force-include"]

def constantNamesKeys : List String := ["x-enumNames", "x-enum-varnames"]

def firstOf (keys : List String) (raw : OrderedMap String Json) : Option (String × Json) :=
  keys.findSome? fun key => (raw.get? key).map (key, ·)

def readForced (raw : OrderedMap String Json) (location : String) : Option Bool × List String :=
  match firstOf forcedKeys raw with
  | none => (none, [])
  | some (key, j) =>
      match j.bool? with
      | some b => (some b, [])
      | none =>
          (none, [location ++ ": '" ++ key ++ "' must be a boolean, found " ++ j.compact])

def stringItems? (j : Json) : Option (List String) := j.items?.bind (·.mapM Json.string?)

def readConstantNames (raw : OrderedMap String Json) (location : String) :
    Option (List String) × List String :=
  match firstOf constantNamesKeys raw with
  | none => (none, [])
  | some (key, j) =>
      match stringItems? j with
      | some names => (some names, [])
      | none => (none, [location ++ ": '" ++ key ++ "' must be a list of strings"])

def read (raw : OrderedMap String Json) (location : String) : Extensions × List String :=
  let (forced, first) := readForced raw location
  let (constantNames, second) := readConstantNames raw location
  ({ forced, constantNames }, first ++ second)

end Extensions

end ApiModel
