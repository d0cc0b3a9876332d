import ApiModel.Proofs.Document.Shared

namespace ApiModel

def Arena.locations (a : Arena) : List String := a.nodes.toList.map (·.location)

inductive Salvaged {α β : Type} (R : α → Option β → Prop) : List α → List β → Prop
  | nil : Salvaged R [] []
  | kept {x : α} {xs : List α} {y : β} {ys : List β} :
      R x (some y) → Salvaged R xs ys → Salvaged R (x :: xs) (y :: ys)
  | dropped {x : α} {xs : List α} {ys : List β} :
      R x none → Salvaged R xs ys → Salvaged R (x :: xs) ys

def EntriesSalvaged {α β : Type} (R : String → α → Option β → Prop) (location : String) :
    OrderedMap String α → OrderedMap String β → Prop :=
  Salvaged fun e y => ∃ o, y = o.map (e.1, ·) ∧ R (location ++ "/" ++ escapeSegment e.1) e.2 o

def OptionSalvaged {α β : Type} (R : α → Option β → Prop) (x : Option α) (y : Option β) : Prop :=
  match x with
  | some x => R x y
  | none => y = none

def Json.Sited (a : Arena) (location : String) (j : Json) (id : Option Nat) : Prop :=
  match SchemaObject.decode j.normalize with
  | .ok s => ∃ i, id = some i ∧ a.Holds location s i
  | .error _ => id = none

def ContentObject.Sited (a : Arena) (location : String) (c : ContentObject) (c' : Content) :
    Prop :=
  List.Forall₂ (fun e e' => e'.1 = e.1 ∧
    OptionSalvaged (Json.Sited a (Loader.contentLocation location e.1)) e.2.schema e'.2) c c'

def ValueSited (a : Arena) (location : String) (own : Option Json)
    (entries : Option ContentObject) (id : Option Nat) : Prop :=
  OptionSalvaged (fun e id => Json.Sited a e.2 e.1 id) (schemaSource own entries location) id

def ParameterObject.Sited (a : Arena) (location : String) (p : ParameterObject) (q : Parameter) :
    Prop := ValueSited a location p.schema p.content q.schema

def HeaderObject.Sited (a : Arena) (location : String) (h : HeaderObject) (g : Header) : Prop :=
  ValueSited a location h.schema h.content g.schema

def RequestBodyObject.Sited (a : Arena) (location : String) (b : RequestBodyObject)
    (c : RequestBody) : Prop := b.content.Sited a location c.content

def OrReference.Used {α β : Type} (s : Section) (table : OrderedMap String β)
    (sited : String → α → β → Prop) (location : String) (r : OrReference α) (y : Option β) : Prop :=
  match r with
  | .reference target => y = (componentName? s target).bind table.get?
  | .inPlace part => ∀ q ∈ y, sited location part q

def HeaderObject.Used (t : Loading) (a : Arena) :
    String → OrReference HeaderObject → Option Header → Prop :=
  OrReference.Used .headers t.headers (HeaderObject.Sited a)

structure ResponseObject.Sited (t : Loading) (a : Arena) (location : String) (r : ResponseObject)
    (q : Response) : Prop where
  content : r.content.Sited a location q.content
  headers : EntriesSalvaged (HeaderObject.Used t a) (location ++ "/headers") r.headers q.headers

namespace PartKind

def Sited (t : Loading) (a : Arena) : (k : PartKind) → String → k.Source → k.Part → Prop
  | .header => HeaderObject.Sited a
  | .parameter => ParameterObject.Sited a
  | .requestBody => RequestBodyObject.Sited a
  | .response => ResponseObject.Sited t a

def Used (k : PartKind) (t : Loading) (a : Arena) :
    String → OrReference k.Source → Option k.Part → Prop :=
  OrReference.Used k.place (k.shelf.parts t) (k.Sited t a)

def Filed (k : PartKind) (declared : Declarations) (t : Loading) (a : Arena) : Prop :=
  ∀ e ∈ k.shelf.parts t, ∃ j r, declared k.place e.1 j ∧ k.shelf.decode j = .ok r ∧
    k.Used t a (k.place.location e.1) r (some e.2)

end PartKind

section

variable (t : Loading) (a : Arena)

def ParametersSited (location : String) (ps : List (OrReference ParameterObject))
    (qs : List Parameter) : Prop :=
  Salvaged (fun e q => PartKind.parameter.Used t a
    (location ++ "/parameters/" ++ toString e.2) e.1 q) ps.zipIdx qs

structure OperationObject.Sited (location : String) (o : OperationObject) (op : Operation) :
    Prop where
  parameters : ParametersSited t a location o.parameters op.parameters
  requestBody : OptionSalvaged (PartKind.requestBody.Used t a (location ++ "/requestBody"))
    o.requestBody op.requestBody
  responses : EntriesSalvaged (PartKind.response.Used t a) (location ++ "/responses")
    (o.responses.filter fun e => !Loader.isExtension e.1) op.responses

def OperationSited (location : String) (e : HttpMethod × Json) (op : Option Operation) : Prop :=
  match OperationObject.decode e.2 with
  | .ok o => ∃ op', op = some op' ∧ op'.method = e.1 ∧
      o.Sited t a (location ++ "/" ++ e.1.key) op'
  | .error _ => op = none

structure PathItemSited (location : String) (raw : OrderedMap String Json) (item : PathItem) :
    Prop where
  operations : Salvaged (OperationSited t a location) (declaredOperations raw) item.operations
  parameters : ∃ ps, (declaredParameters raw = .ok ps ∨ ps = []) ∧
    ParametersSited t a location ps item.parameters

def PathSited (e : String × Json) (item : Option PathItem) : Prop :=
  ∀ i ∈ item, i.path = e.1 ∧ ∃ raw, e.2 = .object raw ∧
    PathItemSited t a ("#/paths/" ++ escapeSegment e.1) raw i

end

structure Document.Sited (root : OrderedMap String Json) (t : Loading) (d : Document) : Prop where
  schemas : EntriesSalvaged (fun location j id => Json.Sited d.arena location j id)
    Section.schemas.root (componentEntries root "schemas") d.schemas
  shared : ∀ k : PartKind, k.Filed (declarationsOf root) t d.arena
  paths : Salvaged (PathSited t d.arena)
    ((rootEntries root "paths").filter fun e => !Loader.isExtension e.1) d.paths

end ApiModel
