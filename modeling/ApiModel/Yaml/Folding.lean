import ApiModel.Json.Reader
import ApiModel.Yaml.Cursor

namespace ApiModel.Yaml

structure Folding where
  text : List Char
  blanks : List Char
  firstBreak : Option Char
  laterBreaks : List Char
  broken : Bool
  deriving Repr

namespace Folding

def empty : Folding := ⟨[], [], none, [], false⟩

def addBlank (f : Folding) (c : Char) : Folding :=
  if f.broken then f else { f with blanks := c :: f.blanks }

def addBreak (f : Folding) (c : Char) : Folding :=
  if f.broken then { f with laterBreaks := breakChar c :: f.laterBreaks }
  else { f with blanks := [], firstBreak := some (breakChar c), broken := true }

def joinLines (f : Folding) : Folding := { f with broken := true }

def isOpen (f : Folding) : Bool := f.broken || !f.blanks.isEmpty

def gap (f : Folding) : List Char :=
  if f.broken then
    match f.firstBreak with
    | some '\n' => if f.laterBreaks.isEmpty then [' '] else f.laterBreaks
    | some c => f.laterBreaks ++ [c]
    | none => f.laterBreaks
  else f.blanks

def settle (f : Folding) : Folding := { empty with text := f.gap ++ f.text }

def addChar (f : Folding) (c : Char) : Folding :=
  { empty with text := c :: (f.gap ++ f.text) }

def result (f : Folding) : String := String.ofList f.text.reverse

end Folding

def isFlowMark (c : Char) : Bool :=
  c == ',' || c == '[' || c == ']' || c == '\x7b' || c == '\x7d'

/-- Reads a plain scalar to its end. Outside flow collections a line indented less than `indent`
ends it. None where a blank or a colon stands against the rules. -/
def plainScalar? (inFlow : Bool) (indent : Int) :
    List Char → Mark → Folding → Option (Folding × Cursor)
  | [], m, f => some (f, ⟨[], m⟩)
  | '\r' :: '\n' :: rest, m, f => plainScalar? inFlow indent rest (m.newLine 2) (f.addBreak '\n')
  | c :: rest, m, f =>
      if isSpacing c then
        if f.broken && c == '\t' && m.column < indent then none
        else plainScalar? inFlow indent rest (m.next 1) (f.addBlank c)
      else if isBreak c then plainScalar? inFlow indent rest (m.newLine 1) (f.addBreak c)
      else
        let here : Option (Folding × Cursor) := some (f, ⟨c :: rest, m⟩)
        if f.isOpen && !inFlow && m.column < indent then here
        else if m.column == 0 && isDocumentMark (c :: rest) then here
        else if f.isOpen && c == '#' then here
        else if inFlow && c == ':' && rest.head?.any (fun d => isFlowMark d || d == '?') then none
        else if (c == ':' && endsWord rest) || (inFlow && isFlowMark c) then here
        else plainScalar? inFlow indent rest (m.next 1) (f.addChar c)

def singleQuoted? : List Char → Mark → Folding → Option (Folding × Cursor)
  | [], _, _ => none
  | '\r' :: '\n' :: rest, m, f => singleQuoted? rest (m.newLine 2) (f.addBreak '\n')
  | '\'' :: '\'' :: rest, m, f => singleQuoted? rest (m.next 2) (f.addChar '\'')
  | '\'' :: rest, m, f => some (f.settle, ⟨rest, m.next 1⟩)
  | c :: rest, m, f =>
      if isSpacing c then singleQuoted? rest (m.next 1) (f.addBlank c)
      else if isBreak c then singleQuoted? rest (m.newLine 1) (f.addBreak c)
      else if m.column == 0 && isDocumentMark (c :: rest) then none
      else singleQuoted? rest (m.next 1) (f.addChar c)

def escapedAs? : Char → Option Char
  | '0' => some (Char.ofNat 0)
  | 'a' => some (Char.ofNat 7)
  | 'b' => some (Char.ofNat 8)
  | 't' | '\t' => some '\t'
  | 'n' => some '\n'
  | 'v' => some (Char.ofNat 11)
  | 'f' => some (Char.ofNat 12)
  | 'r' => some '\r'
  | 'e' => some (Char.ofNat 27)
  | ' ' => some ' '
  | '"' => some '"'
  | '/' => some '/'
  | '\\' => some '\\'
  | 'N' => some (Char.ofNat 0x85)
  | '_' => some (Char.ofNat 0xA0)
  | 'L' => some (Char.ofNat 0x2028)
  | 'P' => some (Char.ofNat 0x2029)
  | _ => none

def codeLength? : Char → Option Nat
  | 'x' => some 2
  | 'u' => some 4
  | 'U' => some 8
  | _ => none

def codeChar? (count : Nat) (s : List Char) : Option Char :=
  let digits := s.take count
  if digits.length < count then none
  else (Json.hexValue? digits).bind fun n =>
    if (0xD800 ≤ n ∧ n ≤ 0xDFFF) ∨ 0x10FFFF < n then none else some (Char.ofNat n)

def doubleQuoted? (s : List Char) (m : Mark) (f : Folding) : Option (Folding × Cursor) :=
  match s with
  | [] => none
  | '"' :: rest => some (f.settle, ⟨rest, m.next 1⟩)
  | '\r' :: '\n' :: rest => doubleQuoted? rest (m.newLine 2) (f.addBreak '\n')
  | '\\' :: '\r' :: '\n' :: rest => doubleQuoted? rest (m.newLine 3) f.settle.joinLines
  | '\\' :: e :: rest =>
      if isBreak e then doubleQuoted? rest (m.newLine 2) f.settle.joinLines
      else match escapedAs? e with
        | some c => doubleQuoted? rest (m.next 2) (f.addChar c)
        | none =>
            match codeLength? e with
            | none => none
            | some count =>
                match codeChar? count rest with
                | none => none
                | some c => doubleQuoted? (rest.drop count) (m.next (2 + count)) (f.addChar c)
  | c :: rest =>
      if isSpacing c then doubleQuoted? rest (m.next 1) (f.addBlank c)
      else if isBreak c then doubleQuoted? rest (m.newLine 1) (f.addBreak c)
      else if m.column == 0 && isDocumentMark (c :: rest) then none
      else doubleQuoted? rest (m.next 1) (f.addChar c)
termination_by s.length
decreasing_by all_goals simp_wf <;> omega

end ApiModel.Yaml
