namespace ApiModel

structure TypeNames where
  segments : List String
  deriving DecidableEq, Repr, Inhabited

namespace TypeNames

def root (name : String) : TypeNames := ⟨[name]⟩

def child (n : TypeNames) (segment : String) : TypeNames := ⟨n.segments ++ [segment]⟩

def last (n : TypeNames) : String := n.segments.getLast?.getD ""

def joined (n : TypeNames) : String := String.join n.segments

def dotted (n : TypeNames) : String := ".".intercalate n.segments

def precedes : List String → List String → Bool
  | _, [] => false
  | [], _ :: _ => true
  | a :: as, b :: bs => if a = b then precedes as bs else decide (a < b)

def less (n m : TypeNames) : Bool := precedes n.segments m.segments

@[simp] theorem segments_child (n : TypeNames) (segment : String) :
    (n.child segment).segments = n.segments ++ [segment] := rfl

@[simp] theorem last_child (n : TypeNames) (segment : String) :
    (n.child segment).last = segment := by
  simp [last]

end TypeNames

end ApiModel
