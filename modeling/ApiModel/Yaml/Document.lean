import ApiModel.Yaml.Node
import ApiModel.Yaml.Scalar

namespace ApiModel.Yaml

def depthLimit : Nat := 128

namespace Node

mutual

def markCount : Node → Nat
  | .scalar _ _ _ | .alias _ => 1
  | .sequence _ items => 2 + itemMarks items
  | .mapping _ entries => 2 + entryMarks entries

def itemMarks : List Node → Nat
  | [] => 0
  | item :: rest => item.markCount + itemMarks rest

def entryMarks : List (Node × Node) → Nat
  | [] => 0
  | (key, value) :: rest => key.markCount + value.markCount + entryMarks rest

end

abbrev Expansion := StateT Nat Option

def isPrivate (tag : Option String) : Bool := tag.any fun t => t.toList.head? == some '!'

def target (anchors : Anchors) : Node → Expansion Node
  | .alias slot => do
      match ← get with
      | 0 => failure
      | left + 1 =>
          set left
          match anchors.node? slot with
          | some node => return node
          | none => failure
  | node => return node

def keyText (anchors : Anchors) (node : Node) : Expansion String := do
  match ← target anchors node with
  | .scalar _ _ text => return text
  | _ => failure

def value (anchors : Anchors) : Nat → Node → Expansion Json
  | depth, node => do
      match ← target anchors node with
      | .scalar tag plain text =>
          match scalarValue? tag plain text with
          | some j => return j
          | none => failure
      | .alias _ => failure
      | .sequence tag items =>
          if isPrivate tag then failure
          else match depth with
            | 0 => failure
            | depth + 1 => return .array (← items.mapM (value anchors depth))
      | .mapping tag entries =>
          if isPrivate tag then failure
          else match depth with
            | 0 => failure
            | depth + 1 =>
                let entries ← entries.mapM fun (key, node) => do
                  let key ← keyText anchors key
                  return (key, ← value anchors depth node)
                return .object (OrderedMap.ofList entries)

end Node

def parse? (text : String) : Option Json := do
  match ← nodes? text.toList with
  | (none, _) => return .null
  | (some root, anchors) =>
      let (value, _) ← (root.value anchors depthLimit).run (100 * root.markCount)
      return value

end ApiModel.Yaml
