import ApiModel.Model.TypeNames
import ApiModel.Schema.Class

namespace ApiModel

inductive Malformed where
  | notYaml
  | rootNotMapping
  | complaints (messages : List String)
  deriving DecidableEq, Repr

def Malformed.message : Malformed → String
  | .notYaml => "Invalid YAML/JSON"
  | .rootNotMapping => "Document root must be a mapping"
  | .complaints messages => "; ".intercalate messages

inductive Unsupported where
  | format (type spelling : String)
  | securityScheme (name kind : String)
  deriving DecidableEq, Repr

def Unsupported.message : Unsupported → String
  | .format type spelling => "unrecognized " ++ type ++ " format '" ++ spelling ++ "'"
  | .securityScheme name kind => "security scheme '" ++ name ++ "' of type '" ++ kind ++ "'"

inductive Invariant where
  | alreadyNested (names : TypeNames)
  | underDescendant (names : TypeNames)
  | unnamedReference (reference location : String)
  | unnamedSchema (kind : SchemaClass) (location : String)
  | unnamedMember (location : String) (union : TypeNames)
  | unplacedVariant (variant : TypeNames)
  | unresolvedUnion (union : TypeNames)
  | aliasWithoutTarget (location : String)
  | cannotNest (names : TypeNames)
  deriving DecidableEq, Repr

def Invariant.message : Invariant → String
  | .alreadyNested names => "'" ++ names.dotted ++ "' is already nested"
  | .underDescendant names =>
      "'" ++ names.dotted ++ "' cannot be nested under its own descendant"
  | .unnamedReference reference location =>
      "'" ++ reference ++ "' referenced at " ++ location ++ " was never named"
  | .unnamedSchema kind location => kind.name ++ " schema at " ++ location ++ " was never named"
  | .unnamedMember location union =>
      "inline member at " ++ location ++ " of '" ++ union.dotted ++ "' was never named"
  | .unplacedVariant variant => "variant '" ++ variant.dotted ++ "' has no tree node"
  | .unresolvedUnion union => "union '" ++ union.dotted ++ "' has no resolved variants"
  | .aliasWithoutTarget location => "alias at " ++ location ++ " has no target"
  | .cannotNest names => "'" ++ names.dotted ++ "' cannot hold nested schemas"

/-- A fault of the program itself. A broken state is reported; a year that the mail format cannot
write cuts the run short, without a report. -/
inductive Fault where
  | violated (invariant : Invariant)
  | unwritableYear (year : Int)
  deriving DecidableEq, Repr

def Fault.message : Fault → String
  | .violated invariant => "Internal Invariant Violation: " ++ invariant.message
  | .unwritableYear year => "The year " ++ toString year ++ " has no mail date"

inductive ConversionError where
  | malformed (cause : Malformed)
  | unresolved (reference location : String)
  | unsupported (location : String) (cause : Unsupported)
  | duplicateTag (union tag : String)
  | broken (cause : Fault)
  deriving DecidableEq, Repr

def ConversionError.message : ConversionError → String
  | .malformed cause => "Document Parse Error: " ++ cause.message
  | .unresolved reference location =>
      "Unresolved Reference: '" ++ reference ++ "' at " ++ location
  | .unsupported location cause => "Unsupported Schema at " ++ location ++ ": " ++ cause.message
  | .duplicateTag union tag => "Duplicate discriminator tag '" ++ tag ++ "' in " ++ union
  | .broken cause => cause.message

end ApiModel
