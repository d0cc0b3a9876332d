import ApiModel.Json.Reader

namespace ApiModel.Yaml

open Decimal (Binary64)
open Text (isAsciiDigit digitValue? afterStart?)

def digitsIn? (base : Nat) : List Char → Option Nat
  | [] => none
  | digits => digits.foldlM
      (fun n c => match digitValue? c with
        | some d => if d < base then some (base * n + d) else none
        | none => none)
      0

def basedNumeral? : List Char → Option Nat
  | '0' :: 'x' :: digits => digitsIn? 16 digits
  | '0' :: 'o' :: digits => digitsIn? 8 digits
  | '0' :: 'b' :: digits => digitsIn? 2 digits
  | _ => none

def isZeroPadded (s : List Char) : Bool :=
  let digits := match s with
    | '-' :: rest | '+' :: rest => rest
    | _ => s
  digits.length > 1 && digits.head? == some '0' && digits.all isAsciiDigit

def decimalNumeral? (s : List Char) : Option Nat :=
  if isZeroPadded s then none else digitsIn? 10 s

def wholeNumber? : List Char → Option Int
  | '-' :: s => ((basedNumeral? s).or (decimalNumeral? s)).map fun n => -(n : Int)
  | '+' :: s => ((basedNumeral? s).or (decimalNumeral? s)).map fun n => (n : Int)
  | s => ((basedNumeral? s).or (decimalNumeral? s)).map fun n => (n : Int)

def splitSign : List Char → Bool × List Char
  | '-' :: s => (true, s)
  | '+' :: s => (false, s)
  | s => (false, s)

def exponent? : List Char → Option Int
  | [] => some 0
  | 'e' :: s | 'E' :: s =>
      let (negative, digits) := splitSign s
      (digitsIn? 10 digits).map fun n => if negative then -(n : Int) else n
  | _ => none

def double? (s : List Char) : Option Binary64 :=
  let (negative, s) := splitSign s
  let whole := s.takeWhile isAsciiDigit
  let (fraction, rest) := match s.dropWhile isAsciiDigit with
    | '.' :: s => (s.takeWhile isAsciiDigit, s.dropWhile isAsciiDigit)
    | s => ([], s)
  if whole.isEmpty && fraction.isEmpty then none
  else (exponent? rest).bind fun exponent =>
    Binary64.ofDecimal? negative (digitsValue (whole ++ fraction)) (exponent - fraction.length)

def infinities : List String := [".inf", ".Inf", ".INF", "+.inf", "+.Inf", "+.INF",
  "-.inf", "-.Inf", "-.INF"]

def notNumbers : List String := [".nan", ".NaN", ".NAN"]

def real? (text : String) : Option Json :=
  if infinities.contains text || notNumbers.contains text then some .null
  else (double? text.toList).map fun x => .number (.real x)

def isNullWord (text : String) : Bool := ["null", "Null", "NULL", "~"].contains text

def truth? (text : String) : Option Bool :=
  if ["true", "True", "TRUE"].contains text then some true
  else if ["false", "False", "FALSE"].contains text then some false
  else none

/-- How a whole number is taken: 64 bits are a number, up to 128 bits are refused, and beyond
that the text counts as no whole number at all. -/
inductive Whole where
  | fits (n : Int)
  | refused
  | beyond

def Whole.of (n : Int) : Whole :=
  if Number.fitsWord n then .fits n
  else if -(Nat.pow 2 127 : Int) ≤ n ∧ n < Nat.pow 2 128 then .refused
  else .beyond

def plainValue? (text : String) : Option Json :=
  if text.isEmpty || isNullWord text then some .null
  else match truth? text with
    | some b => some (.bool b)
    | none =>
        let other : Json :=
          if isZeroPadded text.toList then .string text
          else (real? text).getD (.string text)
        match (wholeNumber? text.toList).map Whole.of with
        | some (.fits n) => some (.number (.whole n))
        | some .refused => none
        | _ => some other

def coreTag (name : String) : String := "tag:yaml.org,2002:" ++ name

def scalarValue? (tag : Option String) (plain : Bool) (text : String) : Option Json :=
  match tag with
  | none => if plain then plainValue? text else some (.string text)
  | some tag =>
      if tag.toList.head? = some '!' then none
      else if tag = coreTag "bool" then (truth? text).map .bool
      else if tag = coreTag "int" then
        match (wholeNumber? text.toList).map Whole.of with
        | some (.fits n) => some (.number (.whole n))
        | _ => none
      else if tag = coreTag "float" then real? text
      else if tag = coreTag "null" then if isNullWord text then some .null else none
      else some (.string text)

end ApiModel.Yaml
