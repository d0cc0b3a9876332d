import ApiModel.Union

namespace ApiModel

structure Context where
  document : Document
  options : Options
  placed : Placed := {}

namespace Context

def tree (c : Context) : ModelTree := c.placed.tree

def unions (c : Context) : Unions := c.placed.unions

def node (c : Context) (id : Nat) : SchemaNode := c.document.node id

def namedReference (c : Context) (reference location : String) :
    Except ConversionError TypeNames :=
  c.tree.namedReference c.document reference location

theorem node_bounds (c : Context) {id child : Nat} {slot : Slot}
    (h : (c.node id).child? slot = some child) : id < child ∧ child < c.document.arena.size :=
  c.document.arena.child_bounds (SchemaNode.mem_childIds_of_child? h)

def elementNullable (c : Context) (id : Nat) : Bool := isNullable (some true) (c.node id).nullable

def typeOf (c : Context) (id : Nat) : Except ConversionError SimpleType :=
  let n := c.node id
  match n.reference with
  | some reference => (c.namedReference reference n.location).map .ref
  | none =>
      match c.tree.names? id with
      | some names => .ok (.ref names)
      | none =>
          match classify n with
          | .error e => .error e
          | .ok (.primitive type) => .ok (.primitive type)
          | .ok .array =>
              match _found : n.items with
              | some element =>
                  (c.typeOf element).map fun type => .array type (c.elementNullable element)
              | none => .ok (.array .any true)
          | .ok .map =>
              match _found : n.values with
              | some element =>
                  (c.typeOf element).map fun type => .map type (c.elementNullable element)
              | none => .ok (.map .any true)
          | .ok .raw => .ok .any
          | .ok kind => .error (.broken (.violated (.unnamedSchema kind n.location)))
termination_by c.document.arena.size - id
decreasing_by
  · have := c.node_bounds _found
    omega
  · have := c.node_bounds _found
    omega

def elementType (c : Context) : Option Nat → Except ConversionError (SimpleType × Bool)
  | some id => (c.typeOf id).map (·, c.elementNullable id)
  | none => .ok (.any, true)

end Context

end ApiModel
