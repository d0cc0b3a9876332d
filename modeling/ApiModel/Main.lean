import ApiModel.CommandLine
import Std.Time.DateTime.Timestamp

namespace ApiModel

def usage : String :=
  "usage: spec-ir convert INPUT [-o FILE] [--package-name NAME] [--limit-apis TAGS] " ++
    "[--generate-all] [--allow-parse-errors] [-v] [--dump]"

def fileError : IO.Error → RunError
  | .noFileOrDirectory .. => .missingFile
  | .permissionDenied .. => .file "Permission denied (os error 13)"
  | other => .file (toString other)

def readText (path : String) : IO (Except RunError String) := do
  try return .ok (← IO.FS.readFile path)
  catch e => return .error (fileError e)

def now : IO Timestamp := do
  return ⟨(← Std.Time.Timestamp.now).toSecondsSinceUnixEpoch.val, false⟩

def writeText (output : Option String) (text : String) : IO (Except RunError Unit) := do
  match output with
  | none => return .ok (← IO.println text)
  | some path =>
      try
        match parentFolder? path with
        | some folder => IO.FS.createDirAll folder
        | none => pure ()
        return .ok (← IO.FS.writeFile path text)
      catch e => return .error (fileError e)

def run (c : CommandLine) : IO (Except RunError Unit) := do
  match ← readText c.input with
  | .error e => return .error e
  | .ok text =>
      match c.render text (← now) with
      | .error e => return .error (.conversion e)
      | .ok (rendered, notes) =>
          for note in notes do
            if note.level != "DEBUG" then IO.eprintln note.line
          writeText c.output rendered

end ApiModel

open ApiModel in
def main (arguments : List String) : IO UInt32 := do
  let names := [Flag.packageName, .limitApis, .generateAll, .allowParseErrors, .verbose].filterMap
    (·.environmentName?)
  let environment ← names.filterMapM fun name => do
    return (← IO.getEnv name).map (name, ·)
  let line := match arguments with
    | "convert" :: rest => CommandLine.parse? (environment.lookup ·) rest
    | _ => none
  match line with
  | none =>
      IO.eprintln usage
      return 2
  | some line =>
      match ← run line with
      | .ok () => return 0
      | .error e =>
          IO.eprintln ("Error: " ++ e.message)
          return 1
