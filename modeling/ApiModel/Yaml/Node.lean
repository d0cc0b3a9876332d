import ApiModel.Yaml.Token

namespace ApiModel.Yaml

inductive Node where
  | scalar (tag : Option String) (plain : Bool) (text : String)
  | alias (slot : Nat)
  | sequence (tag : Option String) (items : List Node)
  | mapping (tag : Option String) (entries : List (Node × Node))
  deriving Inhabited, Repr

namespace Node

def empty : Node := .scalar none true ""

end Node

/-- The nodes behind the slots. A new anchor takes the slot whose number is the count of distinct
anchor names so far, and a later anchor with the same number takes it over; `owners` tells which
anchor, counted from the first, holds a slot. -/
structure Anchors where
  slots : OrderedMap String Nat
  owners : OrderedMap Nat Nat
  nodes : OrderedMap Nat Node
  count : Nat

namespace Anchors

def none : Anchors := ⟨[], [], [], 0⟩

def declare (a : Anchors) (name : String) : Nat × Anchors :=
  let slot := a.slots.length
  (a.count,
    { a with
      slots := a.slots.insert name slot
      owners := a.owners.insert slot a.count
      count := a.count + 1 })

def fill (a : Anchors) (anchor : Nat) (node : Node) : Anchors :=
  { a with nodes := a.nodes.insert anchor node }

def node? (a : Anchors) (slot : Nat) : Option Node :=
  (a.owners.get? slot).bind a.nodes.get?

end Anchors

structure Reading where
  tokens : List Token
  anchors : Anchors
  handles : OrderedMap String String

abbrev Reader := StateT Reading Option

namespace Reader

def peek : Reader (Option Token) := do return (← get).tokens.head?

def skip : Reader Unit := modify fun r => { r with tokens := r.tokens.drop 1 }

def next : Reader (Option Token) := do
  let t ← peek
  skip
  return t

def isNext (t : Token) : Reader Bool := do return (← peek) == some t

def isNextOf (ts : List Token) : Reader Bool := do return (← peek).any ts.contains

def accept (t : Token) : Reader Bool := do
  if ← isNext t then
    skip
    return true
  else return false

def expect (t : Token) : Reader Unit := do
  if ← accept t then return () else failure

def fullTag (handle suffix : String) : Reader String := do
  if handle.isEmpty then return suffix
  else match (← get).handles.get? handle with
    | some start => return start ++ suffix
    | none => failure

def properties : Reader (Option String × Option String) := do
  match ← peek with
  | some (.anchor name) =>
      skip
      match ← peek with
      | some (.tag handle suffix) =>
          skip
          return (some name, some (← fullTag handle suffix))
      | _ => return (some name, none)
  | some (.tag handle suffix) =>
      skip
      let tag ← fullTag handle suffix
      match ← peek with
      | some (.anchor name) =>
          skip
          return (some name, some tag)
      | _ => return (none, some tag)
  | _ => return (none, none)

def declare (name : Option String) : Reader (Option Nat) := do
  match name with
  | none => return none
  | some name =>
      let r ← get
      let (anchor, anchors) := r.anchors.declare name
      set { r with anchors }
      return some anchor

def fill (anchor : Option Nat) (node : Node) : Reader Unit :=
  match anchor with
  | none => return ()
  | some anchor => modify fun r => { r with anchors := r.anchors.fill anchor node }

/-- Where a node may stand: in a flow collection, in a block collection, or in a block mapping,
whose sequences need no further indentation. -/
inductive Place where
  | flow
  | block
  | mappingPart
  deriving DecidableEq

mutual

def node : Nat → Place → Reader Node
  | 0, _ => failure
  | fuel + 1, place => do
      match ← peek with
      | some (.alias name) =>
          skip
          match (← get).anchors.slots.get? name with
          | some slot => return .alias slot
          | none => failure
      | _ =>
          let (name, tag) ← properties
          let anchor ← declare name
          let content ← content fuel place (name.isSome || tag.isSome) tag
          fill anchor content
          return content

def content : Nat → Place → Bool → Option String → Reader Node
  | 0, _, _, _ => failure
  | fuel + 1, place, optional, tag => do
      match ← peek with
      | some .entry =>
          if place = .mappingPart then return .sequence tag (← looseItems fuel)
          else if optional then return .scalar tag true ""
          else failure
      | some (.scalar plain text) =>
          skip
          return .scalar tag plain text
      | some .flowSequenceOpen =>
          skip
          return .sequence tag (← flowItems fuel true)
      | some .flowMappingOpen =>
          skip
          return .mapping tag (← flowEntries fuel true)
      | some .sequenceOpen =>
          if place = .flow then
            if optional then return .scalar tag true "" else failure
          else
            skip
            return .sequence tag (← blockItems fuel)
      | some .mappingOpen =>
          if place = .flow then
            if optional then return .scalar tag true "" else failure
          else
            skip
            return .mapping tag (← blockEntries fuel)
      | _ => if optional then return .scalar tag true "" else failure

def blockItems : Nat → Reader (List Node)
  | 0 => failure
  | fuel + 1 => do
      if ← accept .entry then
        let item ←
          if ← isNextOf [.entry, .blockClose] then pure Node.empty else node fuel .block
        return item :: (← blockItems fuel)
      else
        expect .blockClose
        return []

def looseItems : Nat → Reader (List Node)
  | 0 => failure
  | fuel + 1 => do
      if ← accept .entry then
        let item ←
          if ← isNextOf [.entry, .key, .value, .blockClose] then pure Node.empty
          else node fuel .block
        return item :: (← looseItems fuel)
      else return []

def blockEntries : Nat → Reader (List (Node × Node))
  | 0 => failure
  | fuel + 1 => do
      if ← accept .key then
        let key ← blockPart fuel
        let value ← if ← accept .value then blockPart fuel else pure Node.empty
        return (key, value) :: (← blockEntries fuel)
      else
        expect .blockClose
        return []

def blockPart : Nat → Reader Node
  | 0 => failure
  | fuel + 1 => do
      if ← isNextOf [.key, .value, .blockClose] then return Node.empty
      else node fuel .mappingPart

def flowItems : Nat → Bool → Reader (List Node)
  | 0, _ => failure
  | fuel + 1, first => do
      if ← accept .flowSequenceClose then return []
      else
        if first then pure () else expect .comma
        if ← accept .key then
          let key ←
            if ← isNextOf [.value, .comma, .flowSequenceClose] then
              skip
              pure Node.empty
            else node fuel .flow
          let value ← flowValue fuel .flowSequenceClose
          return .mapping none [(key, value)] :: (← flowItems fuel false)
        else if ← accept .flowSequenceClose then return []
        else
          let item ← node fuel .flow
          return item :: (← flowItems fuel false)

def flowEntries : Nat → Bool → Reader (List (Node × Node))
  | 0, _ => failure
  | fuel + 1, first => do
      if ← accept .flowMappingClose then return []
      else
        if first then pure () else expect .comma
        if ← accept .key then
          let key ←
            if ← isNextOf [.value, .comma, .flowMappingClose] then pure Node.empty
            else node fuel .flow
          let value ← flowValue fuel .flowMappingClose
          return (key, value) :: (← flowEntries fuel false)
        else if ← accept .flowMappingClose then return []
        else
          let key ← node fuel .flow
          return (key, Node.empty) :: (← flowEntries fuel false)

def flowValue : Nat → Token → Reader Node
  | 0, _ => failure
  | fuel + 1, close => do
      if ← accept .value then
        if ← isNextOf [.comma, close] then return Node.empty else node fuel .flow
      else return Node.empty

end

def directives : Nat → Bool → List String → Reader Unit
  | 0, _, _ => failure
  | fuel + 1, versioned, known => do
      match ← peek with
      | some (.version major minor) =>
          skip
          if versioned || major ≠ 1 || (minor ≠ 1 && minor ≠ 2) then failure
          else directives fuel true known
      | some (.tagHandle handle start) =>
          skip
          if known.contains handle then failure
          else
            modify fun r => { r with handles := r.handles.insert handle start }
            directives fuel versioned (handle :: known)
      | _ => return ()

def isDirective : Token → Bool
  | .version _ _ | .tagHandle _ _ => true
  | _ => false

def document (fuel : Nat) : Reader (Option Node) := do
  match ← peek with
  | none => return none
  | some t =>
      let root ←
        if t = .documentStart || isDirective t then
          directives fuel false []
          expect .documentStart
          let bare := (← peek).all fun t =>
            isDirective t || [.documentStart, .documentEnd].contains t
          if bare then pure Node.empty else node fuel .block
        else node fuel .block
      if (← get).tokens.all (· == .documentEnd) then return some root else failure

end Reader

def nodes? (text : List Char) : Option (Option Node × Anchors) := do
  let tokens ← tokens? text
  let handles := [("!", "!"), ("!!", "tag:yaml.org,2002:")]
  let (root, reading) ← (Reader.document (8 * tokens.length + 8)).run ⟨tokens, .none, handles⟩
  return (root, reading.anchors)

end ApiModel.Yaml
