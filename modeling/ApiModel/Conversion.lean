import ApiModel.BaseUrl
import ApiModel.Document.Load
import ApiModel.FileHeader
import ApiModel.Model.Summary
import ApiModel.NamedSchemas
import ApiModel.Payloads
import ApiModel.Security

namespace ApiModel

namespace Document

def placed (d : Document) (o : Options) : Except ConversionError Placed := do
  Unions.resolve d (← ModelTree.build d (← d.reachable o))

def undefinedTitle : String := "<undefined>"

def undefinedVersion : String := "0.0.0"

def metadata (d : Document) (o : Options) (moment : Timestamp) : Metadata where
  title := d.info.title.getD undefinedTitle
  description := d.info.description
  version := d.info.version.getD undefinedVersion
  servers := d.servers.map (·.baseUrl)
  packageName := o.packageName
  createdAt := moment

end Document

/-- The first server of the operation's own list, even of an empty one, else of the path's. -/
def Operation.serverOverride (op : Operation) (item : PathItem) : Option String :=
  (op.servers.or item.servers).bind firstBaseUrl

def groupByName (entries : List (String × SpecOperation)) : List SpecApi :=
  let groups := entries.foldl
    (fun (m : OrderedMap String (List SpecOperation)) (name, op) =>
      m.alter name [] (· ++ [op])) []
  groups.map fun (name, operations) => { name, operations }

namespace Context

def operation (c : Context) (item : PathItem) (op : Operation) :
    Except ConversionError SpecOperation := do
  let parameters ← c.parameters item.parameters op.parameters
  let (requestType, body) ← c.requestBody op.requestBody
  let response ← c.response op.responses
  let securityIds ← c.document.securityIds item.path op
  return {
    name := Naming.functionName (op.key item.path)
    method := op.method
    path := item.path
    requestType, parameters, body, response
    deprecated := op.deprecated
    securityIds
    serverOverride := op.serverOverride item }

def selectedOperations (c : Context) : List (PathItem × Operation) :=
  c.document.paths.flatMap fun item => (item.selected c.options).map (item, ·)

def taggedOperation (c : Context) (entry : PathItem × Operation) :
    Except ConversionError (List (String × SpecOperation)) := do
  let (item, op) := entry
  let described ← c.operation item op
  return (op.acceptedTags c.options).map fun tag => (Naming.typeName tag, described)

def apis (c : Context) : Except ConversionError (List SpecApi) := do
  return groupByName (← c.selectedOperations.mapM c.taggedOperation).flatten

end Context

structure Description where
  placed : Placed
  schemas : List NamedSchema
  apis : List SpecApi

namespace Document

def describe (d : Document) (o : Options) : Except ConversionError Description := do
  let placed ← d.placed o
  let c : Context := { document := d, options := o, placed }
  let schemas ← c.namedSchemas
  let apis ← c.apis
  return { placed, schemas, apis }

def convert (d : Document) (o : Options) (moment : Timestamp) :
    Except ConversionError (SpecModel × List Note) := do
  let moment := moment.truncate
  let described ← d.describe o
  let metadata := d.metadata o moment
  let fileHeader ← FileHeader.generate d.info metadata.title metadata.version moment
  let placed := described.placed
  let model : SpecModel := {
    metadata, fileHeader
    apis := described.apis
    schemas := described.schemas
    securitySchemes := d.supportedSchemes
    serialNames := placed.unions.serialNames
    interfaces := placed.unions.interfaces }
  let summary := if o.verbose then [Note.summary model.summary] else []
  return (model, placed.tree.notes ++ d.skippedSchemes ++ summary)

end Document

def convertText (text : String) (o : Options) (moment : Timestamp) :
    Except ConversionError (SpecModel × List Note) := do
  let (document, complaints) ← Document.load text o
  let (model, notes) ← document.convert o moment
  return (model, complaints.map .complaint ++ notes)

end ApiModel
