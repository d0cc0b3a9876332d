import ApiModel.Document.Reference
import ApiModel.Schema.Classify
import ApiModel.Schema.Unvisited

namespace ApiModel

structure ReachableSchema where
  id : Nat
  path : List String
  kind : SchemaClass
  deriving DecidableEq, Repr

structure Reachability where
  visited : List Nat := []
  entries : List ReachableSchema := []
  deriving Repr

namespace Reachability

def entry? (r : Reachability) (id : Nat) : Option ReachableSchema :=
  r.entries.find? (·.id == id)

def record (r : Reachability) (entry : ReachableSchema) : Reachability :=
  { r with entries := r.entries ++ [entry] }

end Reachability

/-- A schema still to be visited. One that `dissolves` is not recorded, its contents are. -/
structure Visit where
  id : Nat
  path : List String
  dissolves : Bool := false
  deriving DecidableEq, Repr

namespace Document

def childVisits (n : SchemaNode) (path : List String) : List Visit :=
  n.items.toList.map (⟨·, path ++ ["items"], false⟩) ++
    n.values.toList.map (⟨·, path ++ ["additionalProperties"], false⟩) ++
    n.oneOf.zipIdx.map (fun (id, place) => ⟨id, path ++ ["OneOf" ++ toString place], false⟩) ++
    n.merged.map (⟨·, path, true⟩) ++
    n.not.toList.map (⟨·, path ++ ["not"], false⟩) ++
    n.properties.map fun (name, id) => ⟨id, path ++ [name], false⟩

def follow (d : Document) (v : Visit) :
    Except ConversionError (List Visit × Option ReachableSchema) :=
  let n := d.node v.id
  match n.reference with
  | some reference =>
      match d.resolve? reference with
      | none => .error (.unresolved reference n.location)
      | some target => .ok ([⟨target, [(schemaName? reference).getD ""], false⟩], none)
  | none => do
      let kind ← classify n
      let entry := if v.dissolves then none else some ⟨v.id, v.path, kind⟩
      return (childVisits n v.path, entry)

def visitWeight (d : Document) (id : Nat) : Nat := (childVisits (d.node id) []).length + 2

theorem length_childVisits (n : SchemaNode) (path : List String) :
    (childVisits n path).length = (childVisits n []).length := by
  simp only [childVisits, List.length_append, List.length_map, List.length_zipIdx]

theorem length_follow {d : Document} {v : Visit} {next : List Visit}
    {entry : Option ReachableSchema} (h : d.follow v = .ok (next, entry)) :
    next.length < d.visitWeight v.id := by
  unfold follow at h
  simp only at h
  split at h
  · split at h
    · cases h
    · cases h
      simp [visitWeight]
  · cases hk : classify (d.node v.id) with
    | error e => rw [hk] at h; cases h
    | ok kind =>
      rw [hk] at h
      cases h
      rw [length_childVisits, visitWeight]
      omega

def visitAll (d : Document) :
    List Visit → Reachability → Except ConversionError Reachability
  | [], r => .ok r
  | v :: rest, r =>
      if _open : v.id < d.arena.size ∧ v.id ∉ r.visited then
        match _followed : d.follow v with
        | .error e => .error e
        | .ok (next, entry) =>
            visitAll d (next ++ rest) ⟨v.id :: r.visited, r.entries ++ entry.toList⟩
      else visitAll d rest r
termination_by visits r => d.arena.unvisited d.visitWeight r.visited + visits.length
decreasing_by
  · have := d.arena.unvisited_cons d.visitWeight _open.1 _open.2
    have := length_follow _followed
    simp only [List.length_append, List.length_cons]
    omega
  · simp

end Document

def parameterVisits (parameters : List Parameter) (path : List String) : List Visit :=
  parameters.filterMap fun p => p.schema.map (⟨·, path ++ [p.name], false⟩)

def contentVisits (content : Content) (path : List String) : List Visit :=
  content.filterMap fun (_, schema) => schema.map (⟨·, path, false⟩)

def headerVisits (headers : OrderedMap String Header) (path : List String) : List Visit :=
  headers.filterMap fun (name, h) => h.schema.map (⟨·, path ++ [name], false⟩)

def Operation.visits (op : Operation) (path : String) : List Visit :=
  let key := op.key path
  parameterVisits op.parameters [key] ++
    op.requestBody.toList.flatMap (fun body => contentVisits body.content [key, "request"]) ++
    op.responses.flatMap fun (code, response) =>
      contentVisits response.content [key, code, "response"] ++
        headerVisits response.headers [key, code, "response"]

def isBrace (c : Char) : Bool := c == '\x7b' || c == '\x7d'

def pathSegments (path : String) : List String :=
  ((Text.splitAt '/' path.toList).filter (!·.isEmpty)).map fun s =>
    String.ofList ((s.dropWhile isBrace).reverse.dropWhile isBrace).reverse

def PathItem.visits (item : PathItem) (o : Options) : List Visit :=
  match item.selected o with
  | [] => []
  | selected =>
      parameterVisits item.parameters (pathSegments item.path) ++
        selected.flatMap (·.visits item.path)

namespace Document

def isForced (d : Document) (o : Options) (id : Nat) : Bool :=
  o.generateAllNamedSchemas || (d.node id).extensions.forced == some true

def keepForced (d : Document) (o : Options) (r : Reachability) (component : String × Nat) :
    Except ConversionError Reachability := do
  let (name, id) := component
  if d.isForced o id then
    let n := d.node id
    let r ← match n.reference with
      | some reference => do
          let _ ← d.resolveChain reference n.location
          pure (r.record ⟨id, [name], .ref⟩)
      | none => pure r
    d.visitAll [⟨id, [name], false⟩] r
  else return r

def reachable (d : Document) (o : Options) : Except ConversionError Reachability := do
  let r ← d.visitAll (d.paths.flatMap (·.visits o)) {}
  d.schemas.foldlM (d.keepForced o) r

end Document

end ApiModel
