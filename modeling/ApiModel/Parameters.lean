import ApiModel.Naming
import ApiModel.TypeUsage

namespace ApiModel

namespace Parameter

def overrides (p q : Parameter) : Bool := p.name == q.name && p.location == q.location

def merge (shared own : List Parameter) : List Parameter :=
  shared.filter (fun p => !own.any (·.overrides p)) ++ own

def isAmbiguous (merged : List Parameter) (p : Parameter) : Bool :=
  decide (1 < merged.countP (·.name == p.name))

def argumentName (merged : List Parameter) (p : Parameter) : String :=
  Naming.fieldName
    (if p.isAmbiguous merged then p.location.name ++ "." ++ p.name else p.name)

end Parameter

def SpecParameter.sorted (ps : List SpecParameter) : List SpecParameter :=
  ParameterLocation.all.flatMap fun location =>
    ps.filter (·.location == location)

namespace Context

def typeOrAny (c : Context) : Option Nat → Except ConversionError SimpleType
  | some id => c.typeOf id
  | none => .ok .any

def parameter (c : Context) (merged : List Parameter) (p : Parameter) :
    Except ConversionError SpecParameter := do
  let type ← c.typeOrAny p.schema
  return {
    name := p.argumentName merged
    rawName := p.name
    location := p.location
    type
    nullable := isNullable p.required none
    description := p.description }

def parameters (c : Context) (shared own : List Parameter) :
    Except ConversionError (List SpecParameter) := do
  let merged := Parameter.merge shared own
  return SpecParameter.sorted (← merged.mapM (c.parameter merged))

end Context

end ApiModel
