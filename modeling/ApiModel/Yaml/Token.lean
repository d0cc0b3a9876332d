import ApiModel.Yaml.BlockText
import ApiModel.Yaml.Folding

namespace ApiModel.Yaml

open Text (isAsciiDigit digitValue? isHexDigit)

inductive Token where
  | version (major minor : Nat)
  | tagHandle (handle start : String)
  | documentStart
  | documentEnd
  | sequenceOpen
  | mappingOpen
  | blockClose
  | flowSequenceOpen
  | flowSequenceClose
  | flowMappingOpen
  | flowMappingClose
  | entry
  | comma
  | key
  | value
  | alias (name : String)
  | anchor (name : String)
  | tag (handle suffix : String)
  | scalar (plain : Bool) (text : String)
  deriving DecidableEq, Repr

structure KeyStart where
  mark : Mark
  token : Nat
  required : Bool
  deriving Repr

/-- A key ends on its line and within 1024 characters. -/
def KeyStart.isStale (k : KeyStart) (here : Mark) : Bool :=
  k.mark.line < here.line || k.mark.index + 1024 < here.index

/-- `keyStart` belongs to the innermost flow collection, `outerStarts` to those around it and to
the block context last. -/
structure Lexer where
  cursor : Cursor
  tokens : Array Token
  indent : Int
  outerIndents : List Int
  keyAllowed : Bool
  keyStart : Option KeyStart
  outerStarts : List (Option KeyStart)

namespace Lexer

def start (text : List Char) : Lexer :=
  { cursor := ⟨text, .start⟩
    tokens := #[]
    indent := -1
    outerIndents := []
    keyAllowed := true
    keyStart := none
    outerStarts := [] }

def inFlow (l : Lexer) : Bool := !l.outerStarts.isEmpty

def mark (l : Lexer) : Mark := l.cursor.mark

def push (l : Lexer) (t : Token) : Lexer := { l with tokens := l.tokens.push t }

def insertAt (l : Lexer) (place : Nat) (t : Token) : Lexer :=
  { l with tokens := l.tokens.insertIdxIfInBounds place t }

def freshStart? (m : Mark) : Option KeyStart → Option (Option KeyStart)
  | none => some none
  | some k =>
      if k.isStale m then (if k.required then none else some none) else some (some k)

def dropStale? (l : Lexer) : Option Lexer := do
  let keyStart ← freshStart? l.mark l.keyStart
  let outerStarts ← l.outerStarts.mapM (freshStart? l.mark)
  return { l with keyStart, outerStarts }

def dropKeyStart? (l : Lexer) : Option Lexer :=
  if l.keyStart.any KeyStart.required then none else some { l with keyStart := none }

/-- Remembers this place as a possible key. At the indentation of a block collection there must
be one. -/
def saveKeyStart? (l : Lexer) : Option Lexer :=
  if l.keyAllowed then do
    let required := !l.inFlow && l.indent == l.mark.column
    let fresh ← l.dropKeyStart?
    return { fresh with keyStart := some ⟨l.mark, l.tokens.size, required⟩ }
  else some l

def openBlock (l : Lexer) (column : Nat) (place : Nat) (t : Token) : Lexer :=
  if l.inFlow then l
  else if l.indent < column then
    { l with indent := column, outerIndents := l.indent :: l.outerIndents }.insertAt place t
  else l

def closeBlocksFrom (column : Int) : List Int → Int → Array Token → List Int × Int × Array Token
  | [], indent, tokens => ([], indent, tokens)
  | outer :: rest, indent, tokens =>
      if column < indent then closeBlocksFrom column rest outer (tokens.push .blockClose)
      else (outer :: rest, indent, tokens)

def closeBlocks (l : Lexer) (column : Int) : Lexer :=
  if l.inFlow then l
  else
    let (outerIndents, indent, tokens) := closeBlocksFrom column l.outerIndents l.indent l.tokens
    { l with outerIndents, indent, tokens }

/-- Steps over blanks, comments and line breaks. A tab counts as a blank where no key may start. -/
def toToken : Nat → Lexer → Lexer
  | 0, l => l
  | fuel + 1, l =>
      let c := l.cursor
      let c := if c.mark.column == 0 && c.head? == some '\uFEFF' then c.skip 1 else c
      let tabs := l.inFlow || !l.keyAllowed
      let c := c.skipWhile fun b => b == ' ' || (tabs && b == '\t')
      let c := if c.head? == some '#' then c.skipWhile (!isBreak ·) else c
      if c.head?.any isBreak then
        toToken fuel { l with cursor := c.skipBreak, keyAllowed := l.keyAllowed || !l.inFlow }
      else { l with cursor := c }

def punctuation (l : Lexer) (t : Token) : Lexer := { l with cursor := l.cursor.skip 1 }.push t

def documentMark? (l : Lexer) (t : Token) : Option Lexer := do
  let l ← (l.closeBlocks (-1)).dropKeyStart?
  return { l with keyAllowed := false, cursor := l.cursor.skip 3 }.push t

def flowOpen? (l : Lexer) (t : Token) : Option Lexer := do
  let l ← l.saveKeyStart?
  let inner :=
    { l with keyStart := none, outerStarts := l.keyStart :: l.outerStarts, keyAllowed := true }
  return inner.punctuation t

def flowClose? (l : Lexer) (t : Token) : Option Lexer := do
  let l ← l.dropKeyStart?
  let outer := match l.outerStarts with
    | [] => l
    | k :: rest => { l with keyStart := k, outerStarts := rest }
  return { outer with keyAllowed := false }.punctuation t

def comma? (l : Lexer) : Option Lexer := do
  let l ← l.dropKeyStart?
  return { l with keyAllowed := true }.punctuation .comma

def openHere? (l : Lexer) (t : Token) : Option Lexer :=
  if l.inFlow then some l
  else if l.keyAllowed then some (l.openBlock l.mark.column l.tokens.size t)
  else none

def entry? (l : Lexer) : Option Lexer := do
  let l ← (← l.openHere? .sequenceOpen).dropKeyStart?
  return { l with keyAllowed := true }.punctuation .entry

def key? (l : Lexer) : Option Lexer := do
  let l ← (← l.openHere? .mappingOpen).dropKeyStart?
  return { l with keyAllowed := !l.inFlow }.punctuation .key

def value? (l : Lexer) : Option Lexer :=
  match l.keyStart with
  | some k =>
      let l := (l.insertAt k.token .key).openBlock k.mark.column k.token .mappingOpen
      some ({ l with keyStart := none, keyAllowed := false }.punctuation .value)
  | none => do
      let l ← l.openHere? .mappingOpen
      return { l with keyAllowed := !l.inFlow }.punctuation .value

def anchor? (l : Lexer) (make : String → Token) : Option Lexer := do
  let l ← l.saveKeyStart?
  let c := l.cursor.skip 1
  let name := c.rest.takeWhile isWordChar
  let c := c.skip name.length
  let follows := endsWord c.rest ||
    c.head?.any fun d => ['?', ':', ',', ']', '\x7d', '%', '@', '\x60'].contains d
  if name.isEmpty || !follows then none
  else return { l with cursor := c, keyAllowed := false }.push (make (String.ofList name))

end Lexer

def isTagChar (verbatim : Bool) (c : Char) : Bool :=
  isWordChar c || ";/?:@&=+$.%!~*'()".toList.contains c ||
    (verbatim && (c == ',' || c == '[' || c == ']'))

def octetCount? (octet : Nat) : Option Nat :=
  if octet < 0x80 then some 1
  else if 0xC0 ≤ octet ∧ octet < 0xE0 then some 2
  else if 0xE0 ≤ octet ∧ octet < 0xF0 then some 3
  else if 0xF0 ≤ octet ∧ octet < 0xF8 then some 4
  else none

def leadingBits (count octet : Nat) : Nat :=
  match count with
  | 1 => octet
  | 2 => octet % 0x20
  | 3 => octet % 0x10
  | _ => octet % 0x08

def percentOctet? : List Char → Option (Nat × List Char)
  | '%' :: a :: b :: rest => (Json.hexValue? [a, b]).map (·, rest)
  | _ => none

def laterOctets? : Nat → Nat → List Char → Option (Nat × List Char)
  | 0, n, s => some (n, s)
  | count + 1, n, s =>
      match percentOctet? s with
      | some (octet, rest) =>
          if 0x80 ≤ octet ∧ octet < 0xC0 then laterOctets? count (64 * n + octet % 64) rest
          else none
      | none => none

def percentChar? (s : List Char) : Option (Char × List Char) := do
  let (octet, s) ← percentOctet? s
  let count ← octetCount? octet
  let (n, s) ← laterOctets? (count - 1) (leadingBits count octet) s
  return (Char.ofNat n, s)

def tagChars? (verbatim : Bool) :
    Nat → List Char → List Char → Option (List Char × List Char)
  | 0, done, s => some (done.reverse, s)
  | _ + 1, done, [] => some (done.reverse, [])
  | fuel + 1, done, c :: rest =>
      if c == '%' then
        match percentChar? (c :: rest) with
        | some (d, rest) => tagChars? verbatim fuel (d :: done) rest
        | none => none
      else if isTagChar verbatim c then tagChars? verbatim fuel (c :: done) rest
      else some (done.reverse, c :: rest)

def tagText? (verbatim : Bool) (c : Cursor) : Option (List Char × Cursor) :=
  (tagChars? verbatim (c.rest.length + 1) [] c.rest).map fun (text, rest) =>
    (text, c.skip (c.rest.length - rest.length))

def tagHandle? (c : Cursor) : Option (List Char × Cursor) :=
  match c.rest with
  | '!' :: rest =>
      let name := rest.takeWhile isWordChar
      let c := c.skip (1 + name.length)
      if c.head? == some '!' then some ('!' :: name ++ ['!'], c.skip 1)
      else some ('!' :: name, c)
  | _ => none

def isClosedHandle (handle : List Char) : Bool :=
  handle.length > 1 && handle.getLast? == some '!'

def tag? (c : Cursor) : Option (String × String × Cursor) :=
  match c.rest with
  | '!' :: '<' :: _ => do
      let (text, c) ← tagText? true (c.skip 2)
      if text.isEmpty || c.head? != some '>' then none
      else return ("", String.ofList text, c.skip 1)
  | _ => do
      let (handle, c) ← tagHandle? c
      let (text, c) ← tagText? false c
      if isClosedHandle handle then
        if text.isEmpty then none else return (String.ofList handle, String.ofList text, c)
      else
        let suffix := handle.drop 1 ++ text
        if suffix.isEmpty then return ("", "!", c) else return ("!", String.ofList suffix, c)

def versionNumber? (c : Cursor) : Option (Nat × Cursor) :=
  let digits := c.rest.takeWhile isAsciiDigit
  if digits.isEmpty || digits.length > 9 then none
  else some (digitsValue digits, c.skip digits.length)

def versionDirective? (c : Cursor) : Option (Token × Cursor) := do
  let (major, c) ← versionNumber? (c.skipWhile isSpacing)
  if c.head? != some '.' then none
  else
    let (minor, c) ← versionNumber? (c.skip 1)
    return (.version major minor, c)

def tagDirective? (c : Cursor) : Option (Token × Cursor) := do
  let (handle, c) ← tagHandle? (c.skipWhile isSpacing)
  if handle.length > 1 && !isClosedHandle handle then none
  else if !c.head?.any isSpacing then none
  else
    let (start, c) ← tagText? true (c.skipWhile isSpacing)
    if start.isEmpty || !endsWord c.rest then none
    else return (.tagHandle (String.ofList handle) (String.ofList start), c)

def directive? (c : Cursor) : Option (Token × Cursor) := do
  let c := c.skip 1
  let name := c.rest.takeWhile isWordChar
  let c := c.skip name.length
  if name.isEmpty || !endsWord c.rest then none
  else
    let (token, c) ←
      if name = "YAML".toList then versionDirective? c
      else if name = "TAG".toList then tagDirective? c
      else none
    return (token, ← c.finishLine?)

namespace Lexer

def directiveLine? (l : Lexer) : Option Lexer := do
  let l ← (l.closeBlocks (-1)).dropKeyStart?
  let (token, c) ← directive? l.cursor
  return { l with keyAllowed := false, cursor := c }.push token

def tagged? (l : Lexer) : Option Lexer := do
  let l ← l.saveKeyStart?
  let (handle, suffix, c) ← tag? l.cursor
  if endsWord c.rest || (l.inFlow && c.head? == some ',') then
    return { l with cursor := c, keyAllowed := false }.push (.tag handle suffix)
  else none

def blockText? (l : Lexer) (literal : Bool) : Option Lexer := do
  let l ← l.dropKeyStart?
  let (text, c) ← blockScalar? literal l.indent (l.cursor.skip 1)
  return { l with cursor := c, keyAllowed := true }.push (.scalar false text)

def quoted? (l : Lexer)
    (read : List Char → Mark → Folding → Option (Folding × Cursor)) : Option Lexer := do
  let l ← l.saveKeyStart?
  let c := l.cursor.skip 1
  let (f, c) ← read c.rest c.mark .empty
  return { l with cursor := c, keyAllowed := false }.push (.scalar false f.result)

def plain? (l : Lexer) : Option Lexer := do
  let l ← l.saveKeyStart?
  let (f, c) ← plainScalar? l.inFlow (l.indent + 1) l.cursor.rest l.cursor.mark .empty
  return { l with cursor := c, keyAllowed := f.broken }.push (.scalar true f.result)

def startsPlain (inFlow : Bool) (c : Char) (rest : List Char) : Bool :=
  if c == '-' then !rest.head?.any isSpacing
  else if c == '?' || c == ':' then !inFlow && !endsWord rest
  else !(isSpacing c || isFlowMark c || "#&*!|>'\"%@\x60".toList.contains c)

def scanOne? (l : Lexer) (c : Char) (rest : List Char) : Option Lexer :=
  let atStart := l.mark.column == 0
  if atStart && c == '%' then l.directiveLine?
  else if atStart && c == '-' && isDocumentMark (c :: rest) then l.documentMark? .documentStart
  else if atStart && c == '.' && isDocumentMark (c :: rest) then l.documentMark? .documentEnd
  else match c with
    | '[' => l.flowOpen? .flowSequenceOpen
    | '\x7b' => l.flowOpen? .flowMappingOpen
    | ']' => l.flowClose? .flowSequenceClose
    | '\x7d' => l.flowClose? .flowMappingClose
    | ',' => l.comma?
    | '*' => l.anchor? .alias
    | '&' => l.anchor? .anchor
    | '!' => l.tagged?
    | '\'' => l.quoted? singleQuoted?
    | '"' => l.quoted? doubleQuoted?
    | _ =>
        if c == '-' && endsWord rest then l.entry?
        else if c == '?' && (l.inFlow || endsWord rest) then l.key?
        else if c == ':' && (l.inFlow || endsWord rest) then l.value?
        else if c == '|' && !l.inFlow then l.blockText? true
        else if c == '>' && !l.inFlow then l.blockText? false
        else if startsPlain l.inFlow c rest then l.plain?
        else none

def finish? (l : Lexer) : Option (List Token) := do
  let l ← (l.closeBlocks (-1)).dropKeyStart?
  return l.tokens.toList

def scan? : Nat → Lexer → Option (List Token)
  | 0, _ => none
  | fuel + 1, l => do
      let l := l.toToken (fuel + 1)
      let l ← l.dropStale?
      let l := l.closeBlocks l.mark.column
      match l.cursor.rest with
      | [] => l.finish?
      | c :: rest => scan? fuel (← l.scanOne? c rest)

end Lexer

def tokens? (text : List Char) : Option (List Token) :=
  let text := match text with
    | '\uFEFF' :: rest => rest
    | _ => text
  if text.all isAllowed then Lexer.scan? (text.length + 1) (.start text) else none

end ApiModel.Yaml
