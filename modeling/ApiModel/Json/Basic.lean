import ApiModel.Decimal.Binary64
import ApiModel.OrderedMap

namespace ApiModel

open Decimal (Binary64)

inductive Number where
  | whole (value : Int)
  | real (value : Binary64)
  deriving DecidableEq, Repr

inductive Json where
  | null
  | bool (value : Bool)
  | number (value : Number)
  | string (value : String)
  | array (items : List Json)
  | object (entries : List (String × Json))
  deriving Inhabited, Repr

namespace Json

def string? : Json → Option String
  | .string s => some s
  | _ => none

def bool? : Json → Option Bool
  | .bool b => some b
  | _ => none

def items? : Json → Option (List Json)
  | .array items => some items
  | _ => none

def entries? : Json → Option (OrderedMap String Json)
  | .object entries => some entries
  | _ => none

def isNull : Json → Bool
  | .null => true
  | _ => false

def isObject : Json → Bool
  | .object _ => true
  | _ => false

def get? (j : Json) (key : String) : Option Json := j.entries?.bind (OrderedMap.get? · key)

def ofNat (n : Nat) : Json := .number (.whole n)

def ofOption {α : Type} (f : α → Json) : Option α → Json
  | none => .null
  | some a => f a

def strings (values : List String) : Json := .array (values.map .string)

def stringOrNull : Option String → Json := ofOption .string

end Json

end ApiModel
