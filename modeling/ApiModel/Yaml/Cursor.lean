import ApiModel.Text.CharClass

namespace ApiModel.Yaml

open Text (isAsciiDigit isAsciiLetter)

structure Mark where
  index : Nat
  line : Nat
  column : Nat
  deriving DecidableEq, Repr

namespace Mark

def start : Mark := ⟨0, 0, 0⟩

def next (m : Mark) (count : Nat) : Mark := ⟨m.index + count, m.line, m.column + count⟩

def newLine (m : Mark) (width : Nat) : Mark := ⟨m.index + width, m.line + 1, 0⟩

end Mark

def isSpacing (c : Char) : Bool := c == ' ' || c == '\t'

def isBreak (c : Char) : Bool :=
  c == '\n' || c == '\r' || c.toNat == 0x85 || c.toNat == 0x2028 || c.toNat == 0x2029

def breakChar (c : Char) : Char :=
  if c.toNat == 0x2028 || c.toNat == 0x2029 then c else '\n'

def endsWord : List Char → Bool
  | [] => true
  | c :: _ => isSpacing c || isBreak c

def isWordChar (c : Char) : Bool :=
  isAsciiDigit c || isAsciiLetter c || c == '_' || c == '-'

def isDocumentMark : List Char → Bool
  | '-' :: '-' :: '-' :: rest => endsWord rest
  | '.' :: '.' :: '.' :: rest => endsWord rest
  | _ => false

def isAllowed (c : Char) : Bool :=
  let n := c.toNat
  n == 0x09 || n == 0x0A || n == 0x0D || (0x20 ≤ n && n ≤ 0x7E) || n == 0x85 ||
    (0xA0 ≤ n && n ≤ 0xD7FF) || (0xE000 ≤ n && n ≤ 0xFFFD) || 0x10000 ≤ n

structure Cursor where
  rest : List Char
  mark : Mark
  deriving Repr

namespace Cursor

def head? (c : Cursor) : Option Char := c.rest.head?

def atEnd (c : Cursor) : Bool := c.rest.isEmpty

def skip (c : Cursor) (count : Nat) : Cursor := ⟨c.rest.drop count, c.mark.next count⟩

def skipWhile (c : Cursor) (p : Char → Bool) : Cursor := c.skip (c.rest.takeWhile p).length

def skipBreak (c : Cursor) : Cursor :=
  match c.rest with
  | '\r' :: '\n' :: rest => ⟨rest, c.mark.newLine 2⟩
  | b :: rest => if isBreak b then ⟨rest, c.mark.newLine 1⟩ else c
  | [] => c

def finishLine? (c : Cursor) : Option Cursor :=
  let c := c.skipWhile isSpacing
  let c := if c.head? == some '#' then c.skipWhile (!isBreak ·) else c
  match c.head? with
  | none => some c
  | some b => if isBreak b then some c.skipBreak else none

end Cursor

end ApiModel.Yaml
