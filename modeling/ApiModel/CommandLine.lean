import ApiModel.Conversion
import ApiModel.Json.Printer
import ApiModel.Model.Writer

namespace ApiModel

inductive Flag where
  | output
  | packageName
  | limitApis
  | generateAll
  | allowParseErrors
  | verbose
  | dump
  deriving DecidableEq, Repr

namespace Flag

def all : List Flag :=
  [.output, .packageName, .limitApis, .generateAll, .allowParseErrors, .verbose, .dump]

def long : Flag → String
  | .output => "output"
  | .packageName => "package-name"
  | .limitApis => "limit-apis"
  | .generateAll => "generate-all"
  | .allowParseErrors => "allow-parse-errors"
  | .verbose => "verbose"
  | .dump => "dump"

def ofLong? (name : List Char) : Option Flag := all.find? fun flag => flag.long.toList == name

def ofShort? : Char → Option Flag
  | 'o' => some .output
  | 'v' => some .verbose
  | _ => none

def takesValue : Flag → Bool
  | .output | .packageName | .limitApis => true
  | _ => false

def mayRepeat (flag : Flag) : Bool := flag == .limitApis

def environmentName? : Flag → Option String
  | .packageName => some "SPEC_IR_PACKAGE_NAME"
  | .limitApis => some "SPEC_IR_LIMIT_APIS"
  | .generateAll => some "SPEC_IR_GENERATE_ALL"
  | .allowParseErrors => some "SPEC_IR_ALLOW_PARSE_ERRORS"
  | .verbose => some "SPEC_IR_VERBOSE"
  | .output | .dump => none

end Flag

structure Arguments where
  flags : List (Flag × String) := []
  positional : List String := []
  deriving DecidableEq, Repr

namespace Arguments

def withFlag (flag : Flag) (value : String) (a : Arguments) : Arguments :=
  { a with flags := (flag, value) :: a.flags }

/-- Short flags in one argument: switches, then at most one flag with a value. Its value is what
follows in the argument, less an equals sign; if nothing follows, it is still to come. -/
def cluster? : List Char → Option (List Flag × Option (Flag × Option String))
  | [] => some ([], none)
  | c :: rest => do
      let flag ← Flag.ofShort? c
      if flag.takesValue then
        let value := match rest with
          | [] => none
          | '=' :: value => some (String.ofList value)
          | value => some (String.ofList value)
        return ([], some (flag, value))
      else
        let (switches, last) ← cluster? rest
        return (flag :: switches, last)

def flagsOf? : List Char → Option (List Flag × Option (Flag × Option String))
  | '-' :: '-' :: body => do
      let name := body.takeWhile (· != '=')
      let value := (body.drop name.length).tail?.map String.ofList
      let flag ← Flag.ofLong? name
      if flag.takesValue then return ([], some (flag, value))
      else if value.isSome then none
      else return ([flag], none)
  | '-' :: body => cluster? body
  | _ => none

def isFlag (argument : String) : Bool :=
  argument.toList.head? == some '-' && argument != "-"

def read? : List String → Option Arguments
  | [] => some {}
  | argument :: rest =>
      if argument = "--" then some { positional := rest }
      else if isFlag argument then do
        let (switches, last) ← flagsOf? argument.toList
        let a ← match last, rest with
          | none, rest => read? rest
          | some (flag, some value), rest => (read? rest).map (withFlag flag value)
          | some (_, none), [] => none
          | some (flag, none), value :: rest =>
              if isFlag value then none else (read? rest).map (withFlag flag value)
        return switches.foldr (withFlag · "true") a
      else (read? rest).map fun a => { a with positional := argument :: a.positional }

def values (a : Arguments) (flag : Flag) : List String :=
  a.flags.filterMap fun (given, value) => if given = flag then some value else none

def valuesOr (a : Arguments) (environment : String → Option String) (flag : Flag) :
    List String :=
  match a.values flag with
  | [] => (flag.environmentName?.bind environment).toList
  | values => values

def switch? (values : List String) : Option Bool :=
  match values.getLast? with
  | none => some false
  | some "true" => some true
  | some "false" => some false
  | some _ => none

end Arguments

structure CommandLine where
  input : String
  output : Option String
  options : Options
  dump : Bool
  deriving DecidableEq, Repr

namespace CommandLine

def tags (values : List String) : OrderedSet String :=
  .ofList (((values.flatMap (Text.splitString ',')).map Text.trimBlank).filter (!·.isEmpty))

def parse? (environment : String → Option String) (arguments : List String) :
    Option CommandLine := do
  let a ← Arguments.read? arguments
  let given := a.valuesOr environment
  if Flag.all.any fun flag => !flag.mayRepeat && 1 < (a.values flag).length then none
  else if (given .output).contains "" then none
  else
    match a.positional with
    | [input] =>
        if input.isEmpty then none
        else
          let options : Options := {
            packageName := (given .packageName).getLast?.getD ""
            limitApis := tags (given .limitApis)
            generateAllNamedSchemas := ← Arguments.switch? (given .generateAll)
            allowParseErrors := ← Arguments.switch? (given .allowParseErrors)
            verbose := ← Arguments.switch? (given .verbose) }
          return {
            input, options
            output := (given .output).getLast?
            dump := ← Arguments.switch? (given .dump) }
    | _ => none

def render (c : CommandLine) (text : String) (moment : Timestamp) :
    Except ConversionError (String × List Note) := do
  let (model, notes) ← convertText text c.options moment
  return (if c.dump then model.summary else model.toJson.pretty, notes)

end CommandLine

def parentFolder? (path : String) : Option String :=
  let reversed := path.toList.reverse
  let name := reversed.takeWhile (· != '/')
  match reversed.drop (name.length + 1) with
  | [] => none
  | folder => some (String.ofList folder.reverse)

inductive RunError where
  | file (cause : String)
  | conversion (cause : ConversionError)
  deriving DecidableEq, Repr

namespace RunError

def missingFile : RunError := .file "No such file or directory (os error 2)"

def message : RunError → String
  | .file cause => "IO Error: " ++ cause
  | .conversion cause => "Conversion failed: " ++ cause.message

end RunError

end ApiModel
