import ApiModel.Document.Reference
import ApiModel.Object.Operation
import ApiModel.Schema.Normal
import ApiModel.Yaml.Document
/-!
Loading a document. Each part is read on its own; what cannot be read is complained about and left
out. A shared part is looked up among those loaded before.
-/

namespace ApiModel

structure Loading where
  complaints : List String := []
  arena : Arena := .empty
  parameters : OrderedMap String Parameter := []
  requestBodies : OrderedMap String RequestBody := []
  responses : OrderedMap String Response := []
  headers : OrderedMap String Header := []

abbrev Loader := StateM Loading

namespace Loader

def complain (message : String) : Loader Unit :=
  modify fun l => { l with complaints := l.complaints ++ [message] }

def read {α : Type} (decoder : Decoder α) (j : Json) (location : String) : Loader (Option α) :=
  match decoder j with
  | .ok a => return some a
  | .error e => do
      complain (location ++ ": " ++ e.message)
      return none

def objectAt (j : Option Json) (location : String) : Loader (OrderedMap String Json) :=
  match j with
  | none => return []
  | some (.object entries) => return entries
  | some _ => do
      complain (location ++ ": expected an object")
      return []

def schema (j : Json) (location : String) : Loader (Option Nat) := do
  match ← read SchemaObject.decode j.normalize location with
  | none => return none
  | some s =>
      let l ← get
      set { l with
        arena := l.arena.intern location s
        complaints := l.complaints ++ s.complaints location }
      return some l.arena.size

def optionalSchema (j : Option Json) (location : String) : Loader (Option Nat) :=
  match j with
  | none => return none
  | some j => schema j location

def contentLocation (location mime : String) : String :=
  location ++ "/content/" ++ escapeSegment mime ++ "/schema"

def content (entries : ContentObject) (location : String) : Loader Content :=
  entries.mapM fun (mime, media) => do
    return (mime, ← optionalSchema media.schema (contentLocation location mime))

def valueSchema (own : Option Json) (entries : Option ContentObject) (location : String) :
    Loader (Option Nat) :=
  match own, entries with
  | some j, _ => schema j (location ++ "/schema")
  | none, some ((mime, media) :: _) =>
      optionalSchema media.schema (contentLocation location mime)
  | none, _ => return none

def shared {α : Type} (s : Section) (parts : Loading → OrderedMap String α)
    (reference location : String) : Loader (Option α) := do
  match (componentName? s reference).bind (parts (← get)).get? with
  | some part => return some part
  | none => do
      complain (location ++ ": cannot resolve '" ++ reference ++ "'")
      return none

def parameter (p : OrReference ParameterObject) (location : String) :
    Loader (Option Parameter) := do
  match p with
  | .reference target => shared .parameters Loading.parameters target location
  | .inPlace p =>
      match ParameterLocation.ofString? p.location with
      | none =>
          complain (location ++ ": unknown parameter location '" ++ p.location ++ "'")
          return none
      | some place =>
          let schema ← valueSchema p.schema p.content location
          return some ⟨p.name, place, p.required, p.description, schema⟩

def header (h : OrReference HeaderObject) (location : String) : Loader (Option Header) := do
  match h with
  | .reference target => shared .headers Loading.headers target location
  | .inPlace h =>
      return some ⟨h.description, h.required, ← valueSchema h.schema h.content location⟩

def requestBody (b : OrReference RequestBodyObject) (location : String) :
    Loader (Option RequestBody) := do
  match b with
  | .reference target => shared .requestBodies Loading.requestBodies target location
  | .inPlace b => return some ⟨b.description, b.required, ← content b.content location⟩

def optionalBody (b : Option (OrReference RequestBodyObject)) (location : String) :
    Loader (Option RequestBody) :=
  match b with
  | some b => requestBody b location
  | none => return none

def entries {α β : Type} (m : OrderedMap String α) (load : α → String → Loader (Option β))
    (location : String) : Loader (OrderedMap String β) :=
  m.filterMapM fun (name, part) => do
    return (← load part (location ++ "/" ++ escapeSegment name)).map (name, ·)

def response (r : OrReference ResponseObject) (location : String) :
    Loader (Option Response) := do
  match r with
  | .reference target => shared .responses Loading.responses target location
  | .inPlace r =>
      let content ← content r.content location
      let headers ← entries r.headers header (location ++ "/headers")
      return some ⟨r.description, content, headers⟩

def parameters (ps : List (OrReference ParameterObject)) (location : String) :
    Loader (List Parameter) :=
  ps.zipIdx.filterMapM fun (p, place) =>
    parameter p (location ++ "/parameters/" ++ toString place)

def isExtension (key : String) : Bool := (Text.afterStart? ['x', '-'] key.toList).isSome

def operation (method : HttpMethod) (o : OperationObject) (location : String) :
    Loader Operation := do
  let parameters ← parameters o.parameters location
  let requestBody ← optionalBody o.requestBody (location ++ "/requestBody")
  let responses ← entries (o.responses.filter fun (code, _) => !isExtension code) response
    (location ++ "/responses")
  return {
    method, parameters, requestBody, responses
    operationId := o.operationId
    tags := o.tags
    deprecated := o.deprecated.getD false
    security := o.security
    servers := o.servers }

def operationAt (method : HttpMethod) (j : Json) (location : String) :
    Loader (Option Operation) := do
  match ← read OperationObject.decode j location with
  | some o => return some (← operation method o location)
  | none => return none

def operations (location : String) :
    List HttpMethod → OrderedMap String Json → Loader (List Operation × OrderedMap String Json)
  | [], raw => return ([], raw)
  | method :: methods, raw =>
      match raw.take method.key with
      | (none, raw) => operations location methods raw
      | (some j, raw) => do
          let first ← operationAt method j (location ++ "/" ++ method.key)
          let (rest, raw) ← operations location methods raw
          return (first.toList ++ rest, raw)

def pathItem (path : String) (j : Json) : Loader (Option PathItem) := do
  let location := "#/paths/" ++ escapeSegment path
  match j with
  | .object raw =>
      if OrderedMap.contains raw "$ref" then
        complain (location ++ ": path item references are not supported")
        return none
      else
        let (operations, rest) ← operations location HttpMethod.all raw
        let o := (← read PathItemObject.decode (.object rest) location).getD .empty
        let parameters ← parameters o.parameters location
        return some { path, parameters, operations, servers := o.servers }
  | _ =>
      complain (location ++ ": expected an object")
      return none

/-- Loads a section of `components`, one entry after the other. `keep` stores an entry, so that
later ones can refer to it. -/
def eachEntry {α : Type} (j : Option Json) (location : String)
    (load : Json → String → Loader (Option α)) (keep : String → α → Loader Unit) :
    Loader Unit := do
  (← objectAt j location).forM fun (name, j) => do
    match ← load j (location ++ "/" ++ escapeSegment name) with
    | some part => keep name part
    | none => return ()

def readThen {α β : Type} (decoder : Decoder α) (load : α → String → Loader (Option β))
    (j : Json) (location : String) : Loader (Option β) := do
  match ← read decoder j location with
  | some a => load a location
  | none => return none

def schemas (j : Option Json) : Loader (OrderedMap String Nat) := do
  let location := "#/components/schemas"
  entries (← objectAt j location) schema location

def markComponents (schemas : OrderedMap String Nat) : Loader Unit :=
  modify fun l =>
    { l with arena := schemas.foldl (fun a (name, id) => a.setComponent id (some name)) l.arena }

def securitySchemes (j : Option Json) : Loader (OrderedMap String SecuritySchemeObject) := do
  let location := "#/components/securitySchemes"
  entries (← objectAt j location) (read SecuritySchemeObject.decode) location

def sharedParts (components : OrderedMap String Json) : Loader Unit := do
  eachEntry (components.get? "headers") "#/components/headers"
    (readThen (OrReference.decode HeaderObject.decode) header)
    fun name h => modify fun l => { l with headers := l.headers.insert name h }
  eachEntry (components.get? "parameters") "#/components/parameters"
    (readThen (OrReference.decode ParameterObject.decode) parameter)
    fun name p => modify fun l => { l with parameters := l.parameters.insert name p }
  eachEntry (components.get? "requestBodies") "#/components/requestBodies"
    (readThen (OrReference.decode RequestBodyObject.decode) requestBody)
    fun name b => modify fun l => { l with requestBodies := l.requestBodies.insert name b }
  eachEntry (components.get? "responses") "#/components/responses"
    (readThen (OrReference.decode ResponseObject.decode) response)
    fun name r => modify fun l => { l with responses := l.responses.insert name r }

def version (j : Option Json) : Loader String := do
  match j.bind Json.string? with
  | none =>
      complain "#/openapi: missing version field"
      return ""
  | some version =>
      if (Text.afterStart? ['3', '.'] version.toList).isSome then return version
      else
        complain ("#/openapi: unsupported version '" ++ version ++ "'")
        return version

def info (j : Option Json) : Loader Info := do
  match j with
  | some j => return (← read Info.decode j "#/info").getD .empty
  | none =>
      complain "#/info: missing required object"
      return .empty

def optionalPart {α : Type} (decoder : Decoder α) (j : Option Json) (location : String) :
    Loader (Option α) :=
  match j with
  | some j => read decoder j location
  | none => return none

def document (root : OrderedMap String Json) : Loader Document := do
  let openapi ← version (root.get? "openapi")
  let info ← info (root.get? "info")
  let servers ← optionalPart (.list Server.decode) (root.get? "servers") "#/servers"
  let security ←
    optionalPart (.list SecurityRequirement.decode) (root.get? "security") "#/security"
  let components ← objectAt (root.get? "components") "#/components"
  let schemas ← schemas (components.get? "schemas")
  markComponents schemas
  let securitySchemes ← securitySchemes (components.get? "securitySchemes")
  sharedParts components
  let raw ← objectAt (root.get? "paths") "#/paths"
  let paths ← (raw.filter fun (path, _) => !isExtension path).filterMapM
    fun (path, j) => pathItem path j
  return {
    openapi, info, security, paths, schemas, securitySchemes
    servers := servers.getD []
    arena := (← get).arena }

end Loader

namespace Document

def ofRoot (root : OrderedMap String Json) : Document × List String :=
  let (document, loading) := (Loader.document root).run {}
  (document, loading.complaints)

def root? (text : String) : Except ConversionError (OrderedMap String Json) :=
  match Yaml.parse? text with
  | none => .error (.malformed .notYaml)
  | some (.object root) => .ok root
  | some _ => .error (.malformed .rootNotMapping)

def load (text : String) (o : Options) : Except ConversionError (Document × List String) := do
  let (document, complaints) := ofRoot (← root? text)
  if complaints.isEmpty || o.allowParseErrors then return (document, complaints)
  else .error (.malformed (.complaints complaints))

end Document

end ApiModel
