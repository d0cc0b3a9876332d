import ApiModel.Yaml.Cursor

namespace ApiModel.Yaml

inductive Chomping where
  | strip
  | clip
  | keep
  deriving DecidableEq, Repr

structure BlockHeader where
  chomping : Chomping
  increment : Option Nat
  deriving Repr

def chomping? : Char → Option Chomping
  | '+' => some .keep
  | '-' => some .strip
  | _ => none

def increment? (c : Char) : Option Nat :=
  if '1' ≤ c ∧ c ≤ '9' then some (c.toNat - '0'.toNat) else none

def blockHeader? (c : Cursor) : Option (BlockHeader × Cursor) :=
  let isZero (c : Cursor) := c.head? == some '0'
  match c.head?.bind chomping? with
  | some chomping =>
      let c := c.skip 1
      if isZero c then none
      else match c.head?.bind increment? with
        | some n => some (⟨chomping, some n⟩, c.skip 1)
        | none => some (⟨chomping, none⟩, c)
  | none =>
      if isZero c then none
      else match c.head?.bind increment? with
        | some n =>
            let c := c.skip 1
            match c.head?.bind chomping? with
            | some chomping => some (⟨chomping, some n⟩, c.skip 1)
            | none => some (⟨.clip, some n⟩, c)
        | none => some (⟨.clip, none⟩, c)

/-- Steps over indentation and empty lines. `indent` is zero while the indentation is unknown.
Gives the breaks, reversed, and the deepest column met; none for a tab in the indentation. -/
def emptyLines? (indent : Nat) :
    List Char → Mark → List Char → Nat → Option (List Char × Nat × Cursor)
  | [], m, breaks, deepest => some (breaks, max deepest m.column, ⟨[], m⟩)
  | '\r' :: '\n' :: rest, m, breaks, deepest =>
      emptyLines? indent rest (m.newLine 2) ('\n' :: breaks) (max deepest m.column)
  | c :: rest, m, breaks, deepest =>
      let inside := indent == 0 || m.column < indent
      if inside && c == ' ' then emptyLines? indent rest (m.next 1) breaks deepest
      else if inside && c == '\t' then none
      else if isBreak c then
        emptyLines? indent rest (m.newLine 1) (breakChar c :: breaks) (max deepest m.column)
      else some (breaks, max deepest m.column, ⟨c :: rest, m⟩)

structure BlockBody where
  text : List Char
  lineEnd : List Char
  empties : List Char
  startsBlank : Bool

def startsSpaced (s : List Char) : Bool := s.head?.any isSpacing

/-- Reads the lines at the indentation `indent`. Folding drops a break between two lines that do
not start with a blank. -/
def blockLines? (literal : Bool) (indent : Nat) :
    Nat → Cursor → BlockBody → Option (BlockBody × Cursor)
  | 0, c, body => some (body, c)
  | fuel + 1, c, body =>
      if c.atEnd || c.mark.column != indent then some (body, c)
      else
        let spaced := startsSpaced c.rest
        let folds := !literal && body.lineEnd == ['\n'] && !body.startsBlank && !spaced
        let joint :=
          if folds then (if body.empties.isEmpty then [' '] else body.empties)
          else body.empties ++ body.lineEnd
        let line := c.rest.takeWhile (!isBreak ·)
        let after := c.skip line.length
        let lineEnd := match after.head? with
          | some b => [breakChar b]
          | none => []
        let next := after.skipBreak
        match emptyLines? indent next.rest next.mark [] 0 with
        | none => none
        | some (empties, _, c) =>
            blockLines? literal indent fuel c
              ⟨line.reverse ++ joint ++ body.text, lineEnd, empties, spaced⟩

def blockScalar? (literal : Bool) (outer : Int) (c : Cursor) : Option (String × Cursor) := do
  let (header, c) ← blockHeader? c
  let c ← c.finishLine?
  let given := match header.increment with
    | some n => if 0 ≤ outer then outer.toNat + n else n
    | none => 0
  let (empties, deepest, c) ← emptyLines? given c.rest c.mark [] 0
  let indent := if given = 0 then max (max deepest (outer + 1).toNat) 1 else given
  let (body, c) ← blockLines? literal indent (c.rest.length + 1) c ⟨[], [], empties, false⟩
  let text := match header.chomping with
    | .strip => body.text
    | .clip => body.lineEnd ++ body.text
    | .keep => body.empties ++ body.lineEnd ++ body.text
  return (String.ofList text.reverse, c)

end ApiModel.Yaml
