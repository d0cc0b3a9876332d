import ApiModel.Model.TypeNames

namespace ApiModel

structure NameRegistry where
  taken : List TypeNames := []
  deriving DecidableEq, Repr

def TypeNames.numbered (n : TypeNames) (number : Nat) : TypeNames :=
  ⟨n.segments.dropLast ++ [n.last ++ toString number]⟩

namespace NameRegistry

def freeNumber (r : NameRegistry) (n : TypeNames) : Nat → Nat → Nat
  | 0, number => number
  | tries + 1, number =>
      if n.numbered number ∈ r.taken then r.freeNumber n tries (number + 1) else number

/-- The name that a candidate gets. One try more than there are names finds a free number. -/
def nameFor (r : NameRegistry) (candidate : TypeNames) : TypeNames :=
  if candidate ∈ r.taken then
    candidate.numbered (r.freeNumber candidate (r.taken.length + 1) 2)
  else candidate

def claim (r : NameRegistry) (candidate : TypeNames) : TypeNames × NameRegistry :=
  let names := r.nameFor candidate
  (names, ⟨names :: r.taken⟩)

def claimAll (r : NameRegistry) : List TypeNames → List TypeNames × NameRegistry
  | [] => ([], r)
  | candidate :: rest =>
      let (names, r) := r.claim candidate
      let (more, r) := r.claimAll rest
      (names :: more, r)

end NameRegistry

end ApiModel
