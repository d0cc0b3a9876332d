import ApiModel.Text.Percent

namespace ApiModel

open Text (percentDecode splitAt afterStart?)

def escapeSegment (s : String) : String :=
  String.ofList (s.toList.flatMap fun c =>
    if c = '~' then ['~', '0'] else if c = '/' then ['~', '1'] else [c])

def replacePair (a b c : Char) : List Char → List Char
  | x :: y :: rest =>
      if x = a ∧ y = b then c :: replacePair a b c rest
      else x :: replacePair a b c (y :: rest)
  | s => s

def decodeSegment (s : List Char) : List Char :=
  percentDecode (replacePair '~' '0' '~' (replacePair '~' '1' '/' s))

inductive Section where
  | schemas
  | parameters
  | requestBodies
  | responses
  | headers
  deriving DecidableEq, Repr

def Section.key : Section → String
  | .schemas => "schemas"
  | .parameters => "parameters"
  | .requestBodies => "requestBodies"
  | .responses => "responses"
  | .headers => "headers"

def componentName? (s : Section) (reference : String) : Option String :=
  match afterStart? ['#', '/'] reference.toList with
  | none => none
  | some pointer =>
      match splitAt '/' pointer with
      | [root, part, name] =>
          let name := decodeSegment name
          if root = "components".toList ∧ part = s.key.toList ∧ name ≠ [] then
            some (String.ofList name)
          else none
      | _ => none

end ApiModel
