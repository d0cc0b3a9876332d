import ApiModel.Text.CharClass

namespace ApiModel.Url

open Text (isAsciiDigit isHexDigit digitValue? splitAt)

def numberIn (base : Nat) (digits : List Char) : Nat :=
  digits.foldl (fun n c => base * n + (digitValue? c).getD 0) 0

def addressNumber? : List Char → Option Nat
  | [] => none
  | '0' :: 'x' :: digits | '0' :: 'X' :: digits =>
      if digits.all isHexDigit then some (numberIn 16 digits) else none
  | '0' :: d :: digits =>
      if (d :: digits).all fun c => '0' ≤ c && c ≤ '7' then some (numberIn 8 (d :: digits))
      else none
  | digits => if digits.all isAsciiDigit then some (numberIn 10 digits) else none

def dottedParts (host : List Char) : List (List Char) :=
  let parts := splitAt '.' host
  if parts.length > 1 && parts.getLast? == some [] then parts.dropLast else parts

def endsInNumber (host : List Char) : Bool :=
  match (dottedParts host).getLast? with
  | some last => (!last.isEmpty && last.all isAsciiDigit) || (addressNumber? last).isSome
  | none => false

/-- Every part but the last is an octet, the last fills what is left of four octets. -/
def isDottedAddress (host : List Char) : Bool :=
  let parts := dottedParts host
  if parts.length > 4 then false
  else match parts.mapM addressNumber? with
    | none => false
    | some numbers =>
        match numbers.getLast? with
        | none => false
        | some last =>
            numbers.dropLast.all (· ≤ 255) && last < Nat.pow 256 (5 - numbers.length)

def isOctetTail (s : List Char) : Bool :=
  let parts := splitAt '.' s
  parts.length == 4 && parts.all fun part =>
    !part.isEmpty && part.all isAsciiDigit && numberIn 10 part ≤ 255 &&
      (part.length == 1 || part.head? != some '0')

/-- Groups of an address in brackets from a place on: `filled` groups stand before it, and
`compressed` tells whether two colons have left some out. -/
def groupsFrom : Nat → List Char → Nat → Bool → Bool
  | 0, _, _, _ => false
  | _ + 1, [], filled, compressed => compressed || filled == 8
  | fuel + 1, ':' :: rest, filled, compressed =>
      filled < 8 && !compressed && groupsFrom fuel rest (filled + 1) true
  | fuel + 1, s, filled, compressed =>
      if filled ≥ 8 then false
      else
        let digits := (s.take 4).takeWhile isHexDigit
        match s.drop digits.length with
        | [] => compressed || filled + 1 == 8
        | ':' :: rest =>
            !rest.isEmpty && groupsFrom fuel rest (filled + 1) compressed
        | '.' :: _ =>
            !digits.isEmpty && filled ≤ 6 && isOctetTail s && (compressed || filled == 6)
        | _ => false

def isGroupAddress (s : List Char) : Bool :=
  match s with
  | ':' :: ':' :: rest => groupsFrom (s.length + 1) rest 1 true
  | ':' :: _ => false
  | [_] => false
  | s => groupsFrom (s.length + 1) s 0 false

end ApiModel.Url
