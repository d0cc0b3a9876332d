import ApiModel.Proofs.Document.Distinct
import ApiModel.Proofs.Outcome
import Mathlib.Data.Option.Basic

namespace ApiModel

def Arena.Holds (a : Arena) (location : String) (s : SchemaObject) (id : Nat) : Prop :=
  ∀ place n, (s.layOut location id)[place]? = some n →
    ∃ mark, a.nodes[id + place]? = some { n with component := mark }

def Arena.Keeps (a b : Arena) : Prop :=
  ∀ location s id, a.Holds location s id → b.Holds location s id

def Json.Becomes (a : Arena) (j : Json) (location : String) (id : Nat) : Prop :=
  ∃ s, SchemaObject.decode j.normalize = .ok s ∧ a.Holds location s id

def ContentObject.Becomes (a : Arena) (location : String) (c : ContentObject) (c' : Content) :
    Prop :=
  List.Forall₂ (fun e e' => e'.1 = e.1 ∧ Option.Rel
    (fun j id => Json.Becomes a j (Loader.contentLocation location e.1) id) e.2.schema e'.2) c c'

def schemaSource (own : Option Json) (entries : Option ContentObject) (location : String) :
    Option (Json × String) :=
  match own, entries with
  | some j, _ => some (j, location ++ "/schema")
  | none, some ((mime, media) :: _) =>
      media.schema.map fun j => (j, Loader.contentLocation location mime)
  | none, _ => none

def ValueBecomes (a : Arena) (location : String) (own : Option Json)
    (entries : Option ContentObject) (id : Option Nat) : Prop :=
  Option.Rel (fun e id => Json.Becomes a e.1 e.2 id) (schemaSource own entries location) id

structure ParameterObject.Becomes (a : Arena) (location : String) (p : ParameterObject)
    (q : Parameter) : Prop where
  name : q.name = p.name
  place : ParameterLocation.ofString? p.location = some q.location
  required : q.required = p.required
  description : q.description = p.description
  schema : ValueBecomes a location p.schema p.content q.schema

structure HeaderObject.Becomes (a : Arena) (location : String) (h : HeaderObject) (g : Header) :
    Prop where
  description : g.description = h.description
  required : g.required = h.required
  schema : ValueBecomes a location h.schema h.content g.schema

structure RequestBodyObject.Becomes (a : Arena) (location : String) (b : RequestBodyObject)
    (c : RequestBody) : Prop where
  description : c.description = b.description
  required : c.required = b.required
  content : b.content.Becomes a location c.content

def Section.root (s : Section) : String := "#/components/" ++ s.key

def Section.location (s : Section) (name : String) : String :=
  s.root ++ "/" ++ escapeSegment name

abbrev Declarations := Section → String → Json → Prop

/-- A part written in place becomes what it says. A reference becomes what the shared part that it
names becomes where that one is declared. -/
inductive OrReference.Becomes {α β : Type} (declared : Declarations) (s : Section)
    (decode : Decoder (OrReference α)) (become : String → α → β → Prop) :
    String → OrReference α → β → Prop
  | inPlace {location : String} {part : α} {result : β} :
      become location part result → Becomes declared s decode become location (.inPlace part) result
  | shared {location target name : String} {j : Json} {r : OrReference α} {result : β} :
      componentName? s target = some name → declared s name j → decode j = .ok r →
        Becomes declared s decode become (s.location name) r result →
          Becomes declared s decode become location (.reference target) result

section

variable (declared : Declarations) (a : Arena)

def ParameterUse : String → OrReference ParameterObject → Parameter → Prop :=
  OrReference.Becomes declared .parameters (OrReference.decode ParameterObject.decode)
    (ParameterObject.Becomes a)

def HeaderUse : String → OrReference HeaderObject → Header → Prop :=
  OrReference.Becomes declared .headers (OrReference.decode HeaderObject.decode)
    (HeaderObject.Becomes a)

def RequestBodyUse : String → OrReference RequestBodyObject → RequestBody → Prop :=
  OrReference.Becomes declared .requestBodies (OrReference.decode RequestBodyObject.decode)
    (RequestBodyObject.Becomes a)

def EntriesBecome {α β : Type} (become : String → α → β → Prop) (location : String)
    (m : OrderedMap String α) (m' : OrderedMap String β) : Prop :=
  List.Forall₂ (fun e e' => e'.1 = e.1 ∧ become (location ++ "/" ++ escapeSegment e.1) e.2 e'.2)
    m m'

structure ResponseObject.Becomes (location : String) (r : ResponseObject) (q : Response) :
    Prop where
  description : q.description = r.description
  content : r.content.Becomes a location q.content
  headers : EntriesBecome (HeaderUse declared a) (location ++ "/headers") r.headers q.headers

def ResponseUse : String → OrReference ResponseObject → Response → Prop :=
  OrReference.Becomes declared .responses (OrReference.decode ResponseObject.decode)
    (ResponseObject.Becomes declared a)

def ParametersBecome (location : String) (ps : List (OrReference ParameterObject))
    (qs : List Parameter) : Prop :=
  List.Forall₂ (fun e q => ParameterUse declared a
    (location ++ "/parameters/" ++ toString e.2) e.1 q) ps.zipIdx qs

structure OperationObject.Becomes (location : String) (o : OperationObject) (op : Operation) :
    Prop where
  operationId : op.operationId = o.operationId
  tags : op.tags = o.tags
  parameters : ParametersBecome declared a location o.parameters op.parameters
  requestBody : Option.Rel (RequestBodyUse declared a (location ++ "/requestBody"))
    o.requestBody op.requestBody
  responses : EntriesBecome (ResponseUse declared a) (location ++ "/responses")
    (o.responses.filter fun e => !Loader.isExtension e.1) op.responses
  deprecated : op.deprecated = o.deprecated.getD false
  security : op.security = o.security
  servers : op.servers = o.servers

def declaredOperations (raw : OrderedMap String Json) : List (HttpMethod × Json) :=
  HttpMethod.all.filterMap fun method => (raw.get? method.key).map (method, ·)

def declaredParameters (raw : OrderedMap String Json) :
    Except DecodeError (List (OrReference ParameterObject)) :=
  match raw.get? "parameters" with
  | some j => Decoder.list (OrReference.decode ParameterObject.decode) j
  | none => .ok []

structure PathItemBecomes (location : String) (raw : OrderedMap String Json) (item : PathItem) :
    Prop where
  operations : List.Forall₂ (fun e op => op.method = e.1 ∧ ∃ o,
    OperationObject.decode e.2 = .ok o ∧
      o.Becomes declared a (location ++ "/" ++ e.1.key) op)
    (declaredOperations raw) item.operations
  parameters : ∃ ps, declaredParameters raw = .ok ps ∧
    ParametersBecome declared a location ps item.parameters

def PathBecomes (e : String × Json) (item : PathItem) : Prop :=
  item.path = e.1 ∧ ∃ raw, e.2 = .object raw ∧
    PathItemBecomes declared a ("#/paths/" ++ escapeSegment e.1) raw item

end

def rootEntries (root : OrderedMap String Json) (key : String) : OrderedMap String Json :=
  Json.entriesOf (root.get? key)

def componentEntries (root : OrderedMap String Json) (key : String) : OrderedMap String Json :=
  Json.entriesOf ((rootEntries root "components").get? key)

def declarationsOf (root : OrderedMap String Json) : Declarations :=
  fun s name j => (name, j) ∈ componentEntries root s.key

structure Document.Complete (root : OrderedMap String Json) (d : Document) : Prop where
  schemas : EntriesBecome (fun location j id => Json.Becomes d.arena j location id)
    Section.schemas.root (componentEntries root "schemas") d.schemas
  securitySchemes : List.Forall₂
    (fun e e' => e'.1 = e.1 ∧ SecuritySchemeObject.decode e.2 = .ok e'.2)
    (componentEntries root "securitySchemes") d.securitySchemes
  paths : List.Forall₂ (PathBecomes (declarationsOf root) d.arena)
    ((rootEntries root "paths").filter fun e => !Loader.isExtension e.1) d.paths

namespace Arena.Keeps

variable {a b c : Arena}

theorem refl (a : Arena) : a.Keeps a := fun _ _ _ h => h

theorem trans (h : a.Keeps b) (h' : b.Keeps c) : a.Keeps c :=
  fun location s id hs => h' location s id (h location s id hs)

theorem json (h : a.Keeps b) {j : Json} {location : String} {id : Nat}
    (hj : Json.Becomes a j location id) : Json.Becomes b j location id := by
  obtain ⟨s, hs, hid⟩ := hj
  exact ⟨s, hs, h _ _ _ hid⟩

end Arena.Keeps

theorem optionRel_mono {α β : Type} {R R' : α → β → Prop} (hR : ∀ x y, R x y → R' x y)
    {x : Option α} {y : Option β} (h : Option.Rel R x y) : Option.Rel R' x y := by
  cases h with
  | none => exact .none
  | some h => exact .some (hR _ _ h)

section

variable {a b : Arena} {declared : Declarations} {location : String}

theorem ContentObject.Becomes.mono (hab : a.Keeps b) {c : ContentObject} {c' : Content}
    (h : c.Becomes a location c') : c.Becomes b location c' :=
  h.imp fun _ _ he => ⟨he.1, optionRel_mono (fun _ _ => hab.json) he.2⟩

theorem ValueBecomes.mono (hab : a.Keeps b) {own : Option Json} {entries : Option ContentObject}
    {id : Option Nat} (h : ValueBecomes a location own entries id) :
    ValueBecomes b location own entries id :=
  optionRel_mono (fun _ _ => hab.json) h

theorem ParameterObject.Becomes.mono (hab : a.Keeps b) {p : ParameterObject} {q : Parameter}
    (h : p.Becomes a location q) : p.Becomes b location q :=
  ⟨h.name, h.place, h.required, h.description, h.schema.mono hab⟩

theorem HeaderObject.Becomes.mono (hab : a.Keeps b) {p : HeaderObject} {q : Header}
    (h : p.Becomes a location q) : p.Becomes b location q :=
  ⟨h.description, h.required, h.schema.mono hab⟩

theorem RequestBodyObject.Becomes.mono (hab : a.Keeps b) {p : RequestBodyObject}
    {q : RequestBody} (h : p.Becomes a location q) : p.Becomes b location q :=
  ⟨h.description, h.required, h.content.mono hab⟩

theorem OrReference.Becomes.mono {α β : Type} {s : Section} {decode : Decoder (OrReference α)}
    {become become' : String → α → β → Prop} {r : OrReference α} {result : β}
    (hmono : ∀ location x y, become location x y → become' location x y)
    (h : OrReference.Becomes declared s decode become location r result) :
    OrReference.Becomes declared s decode become' location r result := by
  induction h with
  | inPlace h => exact .inPlace (hmono _ _ _ h)
  | shared hname hmem hdecode _ ih => exact .shared hname hmem hdecode ih

theorem ParameterUse.mono (hab : a.Keeps b) {p : OrReference ParameterObject} {q : Parameter}
    (h : ParameterUse declared a location p q) : ParameterUse declared b location p q :=
  OrReference.Becomes.mono (fun _ _ _ => ParameterObject.Becomes.mono hab) h

theorem HeaderUse.mono (hab : a.Keeps b) {p : OrReference HeaderObject} {q : Header}
    (h : HeaderUse declared a location p q) : HeaderUse declared b location p q :=
  OrReference.Becomes.mono (fun _ _ _ => HeaderObject.Becomes.mono hab) h

theorem RequestBodyUse.mono (hab : a.Keeps b) {p : OrReference RequestBodyObject}
    {q : RequestBody} (h : RequestBodyUse declared a location p q) :
    RequestBodyUse declared b location p q :=
  OrReference.Becomes.mono (fun _ _ _ => RequestBodyObject.Becomes.mono hab) h

theorem EntriesBecome.mono {α β : Type} {become become' : String → α → β → Prop}
    (hmono : ∀ location x y, become location x y → become' location x y)
    {m : OrderedMap String α} {m' : OrderedMap String β}
    (h : EntriesBecome become location m m') : EntriesBecome become' location m m' :=
  h.imp fun _ _ he => ⟨he.1, hmono _ _ _ he.2⟩

theorem ResponseObject.Becomes.mono (hab : a.Keeps b) {p : ResponseObject} {q : Response}
    (h : p.Becomes declared a location q) : p.Becomes declared b location q :=
  ⟨h.description, h.content.mono hab, h.headers.mono fun _ _ _ => HeaderUse.mono hab⟩

theorem ResponseUse.mono (hab : a.Keeps b) {p : OrReference ResponseObject} {q : Response}
    (h : ResponseUse declared a location p q) : ResponseUse declared b location p q :=
  OrReference.Becomes.mono (fun _ _ _ => ResponseObject.Becomes.mono hab) h

theorem ParametersBecome.mono (hab : a.Keeps b) {ps : List (OrReference ParameterObject)}
    {qs : List Parameter} (h : ParametersBecome declared a location ps qs) :
    ParametersBecome declared b location ps qs :=
  h.imp fun _ _ => ParameterUse.mono hab

theorem OperationObject.Becomes.mono (hab : a.Keeps b) {p : OperationObject} {q : Operation}
    (h : p.Becomes declared a location q) : p.Becomes declared b location q where
  operationId := h.operationId
  tags := h.tags
  parameters := h.parameters.mono hab
  requestBody := optionRel_mono (fun _ _ => RequestBodyUse.mono hab) h.requestBody
  responses := h.responses.mono fun _ _ _ => ResponseUse.mono hab
  deprecated := h.deprecated
  security := h.security
  servers := h.servers

theorem PathItemBecomes.mono (hab : a.Keeps b) {raw : OrderedMap String Json} {item : PathItem}
    (h : PathItemBecomes declared a location raw item) :
    PathItemBecomes declared b location raw item where
  operations := h.operations.imp fun _ _ ⟨hmethod, o, ho, hop⟩ => ⟨hmethod, o, ho, hop.mono hab⟩
  parameters := by
    obtain ⟨ps, hps, hall⟩ := h.parameters
    exact ⟨ps, hps, hall.mono hab⟩

theorem PathBecomes.mono (hab : a.Keeps b) {e : String × Json} {item : PathItem}
    (h : PathBecomes declared a e item) : PathBecomes declared b e item := by
  obtain ⟨hpath, raw, hraw, hitem⟩ := h
  exact ⟨hpath, raw, hraw, hitem.mono hab⟩

end

end ApiModel
