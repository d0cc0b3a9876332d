import ApiModel.Model.TypeNames

namespace ApiModel

inductive Note where
  | complaint (message : String)
  | dropped (schema : String)
  | renamed (wanted given : TypeNames)
  | promoted (location name : String)
  | nested (variant union : TypeNames)
  | skippedScheme (name : String)
  | summary (text : String)
  deriving DecidableEq, Repr

namespace Note

def level : Note → String
  | .complaint _ => "WARN"
  | .summary _ => "INFO"
  | _ => "DEBUG"

def message : Note → String
  | .complaint message => message
  | .dropped schema => "remove unused schema '" ++ schema ++ "'"
  | .renamed wanted given => "renamed '" ++ wanted.dotted ++ "' to '" ++ given.dotted ++ "'"
  | .promoted location name =>
      "promote anonymous schema at " ++ location ++ " to '" ++ name ++ "'"
  | .nested variant union =>
      "nest variant '" ++ variant.dotted ++ "' under '" ++ union.dotted ++ "'"
  | .skippedScheme name => "skip unsupported security scheme '" ++ name ++ "'"
  | .summary text => "\n" ++ text

def line (n : Note) : String := n.level ++ " " ++ n.message

end Note

end ApiModel
