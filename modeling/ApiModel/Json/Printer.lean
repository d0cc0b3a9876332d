import ApiModel.Decimal.Shortest
import ApiModel.Json.Basic

namespace ApiModel

open Decimal (Binary64 shortest)

/-- Positional from `0.00001` to below `10 ^ 16`, else one digit before the point and a signed
exponent; a whole number keeps `.0`. -/
def realText (x : Binary64) : String :=
  let sign := if x.negative then "-" else ""
  if x.mantissa = 0 then sign ++ "0.0"
  else
    let d := shortest x.mantissa x.exponent
    let digits := (toString d.digits).toList
    let count := digits.length
    let point : Int := count + d.exponent
    let body : List Char :=
      if 0 ≤ d.exponent ∧ point ≤ 16 then
        digits ++ List.replicate d.exponent.toNat '0' ++ ['.', '0']
      else if 0 < point ∧ point ≤ 16 then
        digits.take point.toNat ++ '.' :: digits.drop point.toNat
      else if -5 < point ∧ point ≤ 0 then
        '0' :: '.' :: List.replicate (-point).toNat '0' ++ digits
      else
        let power := point - 1
        let fraction := if count = 1 then [] else '.' :: digits.drop 1
        let mark := if power < 0 then ['e', '-'] else ['e', '+']
        digits.take 1 ++ fraction ++ mark ++ (toString power.natAbs).toList
    sign ++ String.ofList body

def Number.text : Number → String
  | .whole n => toString n
  | .real x => realText x

def hexPair (n : Nat) : List Char := [Nat.digitChar (n / 16), Nat.digitChar (n % 16)]

def escapedChar (c : Char) : List Char :=
  if c = '"' then ['\\', '"']
  else if c = '\\' then ['\\', '\\']
  else if c = '\n' then ['\\', 'n']
  else if c = '\r' then ['\\', 'r']
  else if c = '\t' then ['\\', 't']
  else if c.toNat = 8 then ['\\', 'b']
  else if c.toNat = 12 then ['\\', 'f']
  else if c.toNat < 32 then '\\' :: 'u' :: '0' :: '0' :: hexPair c.toNat
  else [c]

def quoteWith (escape : Char → List Char) (s : String) : String :=
  String.ofList ('"' :: s.toList.flatMap escape ++ ['"'])

namespace Json

mutual

def printWith (escape : Char → List Char) : Json → String
  | .null => "null"
  | .bool true => "true"
  | .bool false => "false"
  | .number n => n.text
  | .string s => quoteWith escape s
  | .array items => "[" ++ printItems escape items ++ "]"
  | .object entries => "\x7b" ++ printEntries escape entries ++ "\x7d"

def printItems (escape : Char → List Char) : List Json → String
  | [] => ""
  | [item] => printWith escape item
  | item :: rest => printWith escape item ++ "," ++ printItems escape rest

def printEntries (escape : Char → List Char) : List (String × Json) → String
  | [] => ""
  | [(key, value)] => quoteWith escape key ++ ":" ++ printWith escape value
  | (key, value) :: rest =>
      quoteWith escape key ++ ":" ++ printWith escape value ++ "," ++ printEntries escape rest

end

def compact (j : Json) : String := printWith escapedChar j

def lineStart (depth : Nat) : String := "\n" ++ String.ofList (List.replicate (2 * depth) ' ')

mutual

def prettyAt (depth : Nat) : Json → String
  | .array [] => "[]"
  | .array items => "[" ++ prettyItems (depth + 1) items ++ lineStart depth ++ "]"
  | .object [] => "\x7b\x7d"
  | .object entries => "\x7b" ++ prettyEntries (depth + 1) entries ++ lineStart depth ++ "\x7d"
  | other => printWith escapedChar other

def prettyItems (depth : Nat) : List Json → String
  | [] => ""
  | [item] => lineStart depth ++ prettyAt depth item
  | item :: rest => lineStart depth ++ prettyAt depth item ++ "," ++ prettyItems depth rest

def prettyEntries (depth : Nat) : List (String × Json) → String
  | [] => ""
  | [(key, value)] =>
      lineStart depth ++ quoteWith escapedChar key ++ ": " ++ prettyAt depth value
  | (key, value) :: rest =>
      lineStart depth ++ quoteWith escapedChar key ++ ": " ++ prettyAt depth value ++ "," ++
        prettyEntries depth rest

end

def pretty (j : Json) : String := prettyAt 0 j

def plainText : Json → String
  | .string s => s
  | other => other.compact

end Json

end ApiModel
