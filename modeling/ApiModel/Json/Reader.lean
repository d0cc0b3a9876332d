import ApiModel.Json.Basic
import ApiModel.Text.CharClass

namespace ApiModel

open Decimal (Binary64)
open Text (isAsciiDigit digitValue? afterStart?)

def digitsValue (digits : List Char) : Nat :=
  digits.foldl (fun n c => 10 * n + (c.toNat - '0'.toNat)) 0

def Number.fitsWord (n : Int) : Bool := -(Nat.pow 2 63 : Int) ≤ n && n < Nat.pow 2 64

def Number.ofParts? (negative : Bool) (whole : List Char) (fraction : Option (List Char))
    (exponent : Option Int) : Option Number :=
  let real (fraction : List Char) (exponent : Int) :=
    (Binary64.ofDecimal? negative (digitsValue (whole ++ fraction))
      (exponent - fraction.length)).map .real
  match fraction, exponent with
  | none, none =>
      let n : Int := digitsValue whole
      let n := if negative then -n else n
      if n = 0 ∧ negative then real [] 0
      else if fitsWord n then some (.whole n)
      else real [] 0
  | _, _ => real (fraction.getD []) (exponent.getD 0)

namespace Json

def skipBlanks (s : List Char) : List Char :=
  s.dropWhile fun c => c == ' ' || c == '\n' || c == '\r' || c == '\t'

def readDigits (s : List Char) : List Char × List Char :=
  (s.takeWhile isAsciiDigit, s.dropWhile isAsciiDigit)

def readFraction? : List Char → Option (Option (List Char) × List Char)
  | '.' :: s =>
      match readDigits s with
      | ([], _) => none
      | (digits, rest) => some (some digits, rest)
  | s => some (none, s)

def readExponent? (s : List Char) : Option (Option Int × List Char) :=
  match s with
  | 'e' :: s | 'E' :: s =>
      let (negative, s) := match s with
        | '+' :: s => (false, s)
        | '-' :: s => (true, s)
        | s => (false, s)
      match readDigits s with
      | ([], _) => none
      | (digits, rest) =>
          let n : Int := digitsValue digits
          some (some (if negative then -n else n), rest)
  | s => some (none, s)

def readNumber (s : List Char) : Option (Json × List Char) := do
  let (negative, s) := match s with
    | '-' :: s => (true, s)
    | s => (false, s)
  let (whole, s) ← match s with
    | '0' :: s => some (['0'], s)
    | s => match readDigits s with
      | ([], _) => none
      | parts => some parts
  if s.head?.any isAsciiDigit then none
  let (fraction, s) ← readFraction? s
  let (exponent, s) ← readExponent? s
  let n ← Number.ofParts? negative whole fraction exponent
  return (.number n, s)

def hexValue? (digits : List Char) : Option Nat :=
  digits.foldlM (fun n c => (digitValue? c).map (16 * n + ·)) 0

def readUnit : List Char → Option (Nat × List Char)
  | a :: b :: c :: d :: rest => (hexValue? [a, b, c, d]).map (·, rest)
  | _ => none

def readUnicode (s : List Char) : Option (Char × List Char) := do
  let (high, s) ← readUnit s
  if 0xD800 ≤ high ∧ high < 0xDC00 then
    match s with
    | '\\' :: 'u' :: s =>
        let (low, s) ← readUnit s
        if 0xDC00 ≤ low ∧ low < 0xE000 then
          return (Char.ofNat (0x10000 + (high - 0xD800) * 0x400 + (low - 0xDC00)), s)
        else none
    | _ => none
  else if 0xDC00 ≤ high ∧ high < 0xE000 then none
  else return (Char.ofNat high, s)

def simpleEscape? : Char → Option Char
  | '"' => some '"'
  | '\\' => some '\\'
  | '/' => some '/'
  | 'b' => some (Char.ofNat 8)
  | 'f' => some (Char.ofNat 12)
  | 'n' => some '\n'
  | 'r' => some '\r'
  | 't' => some '\t'
  | _ => none

def readString : Nat → List Char → List Char → Option (String × List Char)
  | 0, _, _ => none
  | _ + 1, _, [] => none
  | _ + 1, done, '"' :: rest => some (String.ofList done.reverse, rest)
  | fuel + 1, done, '\\' :: 'u' :: rest =>
      match readUnicode rest with
      | none => none
      | some (c, rest) => readString fuel (c :: done) rest
  | fuel + 1, done, '\\' :: e :: rest =>
      match simpleEscape? e with
      | none => none
      | some c => readString fuel (c :: done) rest
  | _ + 1, _, ['\\'] => none
  | fuel + 1, done, c :: rest =>
      if c.toNat < 32 then none else readString fuel (c :: done) rest

mutual

/-- A value after its leading blanks. `depth` bounds the arrays and objects around one another,
`fuel` the characters. -/
def readValue : Nat → Nat → List Char → Option (Json × List Char)
  | 0, _, _ => none
  | fuel + 1, depth, s =>
      match skipBlanks s with
      | 'n' :: rest => (afterStart? "ull".toList rest).map (.null, ·)
      | 't' :: rest => (afterStart? "rue".toList rest).map (.bool true, ·)
      | 'f' :: rest => (afterStart? "alse".toList rest).map (.bool false, ·)
      | '"' :: rest => (readString (rest.length + 1) [] rest).map fun (s, rest) => (.string s, rest)
      | '[' :: rest =>
          match depth with
          | 0 => none
          | depth + 1 =>
              match skipBlanks rest with
              | ']' :: rest => some (.array [], rest)
              | rest => readItems fuel depth [] rest
      | '\x7b' :: rest =>
          match depth with
          | 0 => none
          | depth + 1 =>
              match skipBlanks rest with
              | '\x7d' :: rest => some (.object [], rest)
              | rest => readEntries fuel depth [] rest
      | rest => readNumber rest

def readItems : Nat → Nat → List Json → List Char → Option (Json × List Char)
  | 0, _, _, _ => none
  | fuel + 1, depth, done, s =>
      match readValue fuel depth s with
      | none => none
      | some (item, rest) =>
          match skipBlanks rest with
          | ',' :: rest => readItems fuel depth (item :: done) rest
          | ']' :: rest => some (.array (item :: done).reverse, rest)
          | _ => none

def readEntries : Nat → Nat → OrderedMap String Json → List Char → Option (Json × List Char)
  | 0, _, _, _ => none
  | fuel + 1, depth, done, s =>
      match skipBlanks s with
      | '"' :: rest =>
          match readString (rest.length + 1) [] rest with
          | none => none
          | some (key, rest) =>
              match skipBlanks rest with
              | ':' :: rest =>
                  match readValue fuel depth rest with
                  | none => none
                  | some (value, rest) =>
                      let done := done.insert key value
                      match skipBlanks rest with
                      | ',' :: rest => readEntries fuel depth done rest
                      | '\x7d' :: rest => some (.object done, rest)
                      | _ => none
              | _ => none
      | _ => none

end

def parse? (depth : Nat) (text : String) : Option Json :=
  let s := text.toList
  match readValue (2 * s.length + 2) depth s with
  | some (value, rest) => if (skipBlanks rest).isEmpty then some value else none
  | none => none

end Json

end ApiModel
