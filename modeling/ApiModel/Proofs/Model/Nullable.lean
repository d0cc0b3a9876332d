import ApiModel.Proofs.Conversion.Converted

namespace ApiModel

theorem isNullable_eq_of_not_explicit {required nullable : Option Bool}
    (h : ¬(required = some true ∧ nullable = some true)) :
    isNullable required none = isNullable required nullable := by
  rcases nullable with _ | _ | _
  · rfl
  · rfl
  · rcases required with _ | _ | _
    · rfl
    · rfl
    · exact absurd ⟨rfl, rfl⟩ h

def ElementFlag (d : Document) (typed : Nat → Prop) (type : SimpleType) (nullable : Bool) :
    Option Nat → Prop
  | some element => typed element ∧ nullable = isNullable (some true) (d.node element).nullable
  | none => type = .any ∧ nullable = true

def SimpleType.Flagged (d : Document) : SimpleType → Nat → Prop
  | .array items nullable, id => ElementFlag d (items.Flagged d) items nullable (d.node id).items
  | .map items nullable, id => ElementFlag d (items.Flagged d) items nullable (d.node id).values
  | .any, _ | .raw, _ | .unit, _ | .ref _, _ | .primitive _, _ => True

structure Property.Flagged (d : Document) (required : List String) (entry : String × Nat)
    (p : Property) : Prop where
  rawName : p.rawName = entry.1
  nullable : p.nullable = isNullable (some (required.contains entry.1)) (d.node entry.2).nullable
  type : p.type.Flagged d entry.2

def SchemaShape.Flagged (d : Document) (id : Nat) : SchemaShape → Prop
  | .array items nullable => ElementFlag d (items.Flagged d) items nullable (d.node id).items
  | .map items nullable => ElementFlag d (items.Flagged d) items nullable (d.node id).values
  | .object properties =>
      List.Forall₂ (Property.Flagged d (d.resolveProperties id).required)
        (d.resolveProperties id).properties properties
  | .primitive _ | .enum _ | .sealed _ _ | .ref _ | .raw => True

def ValueFlag (d : Document) (schema : Option Nat) (type : SimpleType) : Prop :=
  ∀ id, schema = some id → type.Flagged d id

def Document.nullable? (d : Document) (schema : Option Nat) : Option Bool :=
  schema.bind fun id => (d.node id).nullable

/-- The flag only asks whether the value is required, which is the rule unless a required value has
an explicitly nullable schema. -/
structure RequiredFlag (d : Document) (required : Option Bool) (schema : Option Nat)
    (nullable : Bool) : Prop where
  exact : nullable = isNullable required none
  agrees : ¬(required = some true ∧ d.nullable? schema = some true) →
    nullable = isNullable required (d.nullable? schema)

theorem RequiredFlag.of_required {d : Document} {schema : Option Nat} (required : Option Bool) :
    RequiredFlag d required schema (isNullable required none) :=
  ⟨rfl, isNullable_eq_of_not_explicit⟩

structure SpecParameter.Flagged (d : Document) (q : Parameter) (p : SpecParameter) : Prop where
  rawName : p.rawName = q.name
  location : p.location = q.location
  nullable : RequiredFlag d q.required q.schema p.nullable
  type : ValueFlag d q.schema p.type

structure Payload.Requests (d : Document) (b : RequestBody) (schema : Option Nat) (p : Payload) :
    Prop where
  nullable : RequiredFlag d b.required schema p.nullable
  type : p.type = .raw ∨ ValueFlag d schema p.type

inductive Payload.Responds (d : Document) (responses : OrderedMap String Response) : Payload → Prop
  | nothing {p : Payload} : mainResponse? responses = none → p.nullable = false →
      Responds d responses p
  | other {p : Payload} {code : String} {response : Response} :
      mainResponse? responses = some (code, response) → response.content.json? = none →
        p.nullable = false → Responds d responses p
  | json {p : Payload} {code media : String} {response : Response} {schema : Option Nat} :
      mainResponse? responses = some (code, response) →
        response.content.json? = some (media, schema) →
          p.nullable = isNullable (some true) (d.nullable? schema) →
            ValueFlag d schema p.type → Responds d responses p

structure SpecOperation.Flagged (d : Document) (item : PathItem) (op : Operation)
    (s : SpecOperation) : Prop where
  parameters : ∀ p ∈ s.parameters, ∃ q ∈ Parameter.merge item.parameters op.parameters,
    p.Flagged d q
  body : ∀ p, s.body = some p → ∃ b media schema, op.requestBody = some b ∧
    b.content.preferred? = some (media, schema) ∧ p.Requests d b schema
  response : s.response.Responds d op.responses

namespace Context

variable {c : Context} {id index : Nat}

theorem typeOf_flagged :
    Meets (c.typeOf id) (fun type => type.Flagged c.document id) fun _ => True := by
  fun_induction Context.typeOf c id with
  | case1 id n reference href =>
    refine Meets.map ?_
    cases c.namedReference reference n.location <;> trivial
  | case2 => trivial
  | case3 => trivial
  | case4 => trivial
  | case5 id n href hnames hk element hitems ih =>
    refine Meets.map (ih.weaken fun type ht => ?_)
    rw [SimpleType.Flagged, show (c.document.node id).items = some element from hitems]
    exact ⟨ht, rfl⟩
  | case6 id n href hnames hk hitems =>
    rw [Meets.ok_iff, SimpleType.Flagged, show (c.document.node id).items = none from hitems]
    exact ⟨rfl, rfl⟩
  | case7 id n href hnames hk element hvalues ih =>
    refine Meets.map (ih.weaken fun type ht => ?_)
    rw [SimpleType.Flagged, show (c.document.node id).values = some element from hvalues]
    exact ⟨ht, rfl⟩
  | case8 id n href hnames hk hvalues =>
    rw [Meets.ok_iff, SimpleType.Flagged, show (c.document.node id).values = none from hvalues]
    exact ⟨rfl, rfl⟩
  | case9 => trivial
  | case10 => trivial

theorem typeOrAny_flagged (schema : Option Nat) :
    Meets (c.typeOrAny schema) (ValueFlag c.document schema) fun _ => True := by
  cases schema with
  | none => exact fun id h => by cases h
  | some id =>
    refine typeOf_flagged.weaken fun type ht found hfound => ?_
    cases hfound
    exact ht

theorem elementType_flagged (element : Option Nat) : Meets (c.elementType element)
    (fun x => ElementFlag c.document (x.1.Flagged c.document) x.1 x.2 element) fun _ => True := by
  cases element with
  | none => exact ⟨rfl, rfl⟩
  | some id => exact Meets.map (typeOf_flagged.weaken fun type ht => ⟨ht, rfl⟩)

theorem property_flagged (required : List String) (entry : String × Nat) :
    Meets (c.property required entry) (Property.Flagged c.document required entry)
      fun _ => True := by
  unfold property
  exact typeOf_flagged.bind fun type _ ht => ⟨rfl, rfl, ht⟩

theorem shapeOf_flagged (index : Nat) (m : ModelNode) :
    Meets (c.shapeOf index m) (SchemaShape.Flagged c.document m.id) fun _ => True := by
  unfold shapeOf
  simp only
  split
  · trivial
  · trivial
  · exact (elementType_flagged (c.node m.id).items).bind fun x _ hx => hx
  · exact (elementType_flagged (c.node m.id).values).bind fun x _ hx => hx
  · unfold properties
    exact (Meets.mapM fun entry _ => property_flagged _ entry).bind fun ps _ hps => hps
  · split <;> trivial
  · split
    · next reference _ =>
      cases c.namedReference reference (c.node m.id).location <;> trivial
    · trivial
  · trivial

theorem parameter_flagged (merged : List Parameter) (q : Parameter) :
    Meets (c.parameter merged q) (SpecParameter.Flagged c.document q) fun _ => True := by
  unfold parameter
  exact (typeOrAny_flagged q.schema).bind fun type _ ht => ⟨rfl, rfl, .of_required q.required, ht⟩

theorem parameters_flagged (shared own : List Parameter) :
    Meets (c.parameters shared own)
      (fun ps => ∀ p ∈ ps, ∃ q ∈ Parameter.merge shared own, p.Flagged c.document q)
      fun _ => True := by
  unfold parameters
  refine (Meets.mapM fun q _ => parameter_flagged _ q).bind fun ps _ hps p hp => ?_
  exact exists_of_mem_right hps (SpecParameter.mem_sorted hp)

theorem requestBody_flagged (body : Option RequestBody) :
    Meets (c.requestBody body) (fun x => ∀ p, x.2 = some p → ∃ b media schema, body = some b ∧
      b.content.preferred? = some (media, schema) ∧ p.Requests c.document b schema)
      fun _ => True := by
  unfold requestBody
  split
  · exact fun p hp => by cases hp
  · next b =>
    split
    · exact fun p hp => by cases hp
    · next media schema hpreferred =>
      generalize MediaType.requestType media = kind
      have hmeets : ∀ type, (type = .raw ∨ ValueFlag c.document schema type) →
          ∀ p, some (⟨type, isNullable b.required none, b.description⟩ : Payload) = some p →
            ∃ b' media schema, some b = some b' ∧ b'.content.preferred? = some (media, schema) ∧
              p.Requests c.document b' schema := by
        intro type ht p hp
        cases hp
        exact ⟨b, media, schema, rfl, hpreferred, .of_required b.required, ht⟩
      simp only
      split
      · exact hmeets .raw (.inl rfl)
      · exact (typeOrAny_flagged schema).bind fun type _ ht => hmeets type (.inr ht)

theorem contentType_flagged (content : Content) :
    Meets (c.contentType content) (fun x => (content.json? = none → x.2 = false) ∧
      ∀ media schema, content.json? = some (media, schema) →
        x.2 = isNullable (some true) (c.document.nullable? schema) ∧
          ValueFlag c.document schema x.1) fun _ => True := by
  unfold contentType
  split
  · next media schema hjson =>
    refine typeOf_flagged.bind fun type _ ht => ⟨fun hnone => ?_, fun media schema hsome => ?_⟩
    · rw [hjson] at hnone
      cases hnone
    · rw [hjson] at hsome
      cases hsome
      refine ⟨rfl, fun id hid => ?_⟩
      cases hid
      exact ht
  · next media hjson =>
    refine ⟨fun _ => rfl, fun media schema hsome => ?_⟩
    rw [hjson] at hsome
    cases hsome
    exact ⟨rfl, fun id hid => by cases hid⟩
  · next hjson =>
    refine ⟨fun _ => rfl, fun media schema hsome => ?_⟩
    rw [hjson] at hsome
    cases hsome

theorem response_flagged (responses : OrderedMap String Response) :
    Meets (c.response responses) (Payload.Responds c.document responses) fun _ => True := by
  unfold response
  split
  · next hmain => exact .nothing hmain rfl
  · next code r hmain =>
    refine (contentType_flagged r.content).bind fun x _ ⟨hother, hjson⟩ => ?_
    cases hfound : r.content.json? with
    | none => exact Payload.Responds.other hmain hfound (hother hfound)
    | some e =>
      obtain ⟨hnullable, htype⟩ := hjson e.1 e.2 hfound
      exact Payload.Responds.json hmain hfound hnullable htype

theorem operation_flagged (item : PathItem) (op : Operation) :
    Meets (c.operation item op) (SpecOperation.Flagged c.document item op) fun _ => True := by
  unfold operation
  refine (parameters_flagged item.parameters op.parameters).bind fun parameters _ hparameters => ?_
  refine (requestBody_flagged op.requestBody).bind fun ⟨requestType, body⟩ _ hbody => ?_
  refine (response_flagged op.responses).bind fun response _ hresponse => ?_
  cases c.document.securityIds item.path op with
  | error e => trivial
  | ok ids => exact ⟨hparameters, hbody, hresponse⟩

theorem apis_flagged (c : Context) :
    Meets c.apis (fun apis => ∀ api ∈ apis, ∀ s ∈ api.operations, ∃ item ∈ c.document.paths,
      ∃ op ∈ item.selected c.options, s.Flagged c.document item op) fun _ => True := by
  unfold apis
  refine (Meets.mapM_all (fun entries => ∀ e ∈ entries, ∃ item ∈ c.document.paths,
    ∃ op ∈ item.selected c.options, e.2.Flagged c.document item op)
      fun entry hentry => ?_).bind fun groups _ hgroups => ?_
  · obtain ⟨item, hitem, hmem⟩ := List.mem_flatMap.1 hentry
    obtain ⟨op, hop, rfl⟩ := List.mem_map.1 hmem
    unfold taggedOperation
    refine (operation_flagged item op).bind fun described _ hdescribed e he => ?_
    obtain ⟨tag, _, rfl⟩ := List.mem_map.1 he
    exact ⟨item, hitem, op, hop, hdescribed⟩
  · refine mem_groupByName (P := fun s => ∃ item ∈ c.document.paths,
      ∃ op ∈ item.selected c.options, s.Flagged c.document item op) fun e he => ?_
    obtain ⟨entries, hentries, he⟩ := List.mem_flatten.1 he
    exact hgroups entries hentries e he

end Context

structure SpecModel.Flagged (d : Document) (o : Options) (m : SpecModel) : Prop where
  schemas : ∃ placed, d.placed o = .ok placed ∧ ∀ s ∈ m.allSchemas, ∃ n ∈ placed.tree.nodes,
    s.names = n.names ∧ s.shape.Flagged d n.id
  operations : ∀ api ∈ m.apis, ∀ s ∈ api.operations, ∃ item ∈ d.paths, ∃ op ∈ item.selected o,
    s.Flagged d item op

def SpecModel.inputFlags (m : SpecModel) : List Bool :=
  (m.apis.flatMap (·.operations)).flatMap fun s =>
    s.parameters.map (·.nullable) ++ s.body.toList.map (·.nullable)

namespace Document

variable {d : Document} {o : Options}

theorem convert_flagged {text : String} {l : Options} {complaints : List String}
    (hload : load text l = .ok (d, complaints)) {moment : Timestamp} {m : SpecModel}
    {notes : List Note} (hc : d.convert o moment = .ok (m, notes)) : m.Flagged d o := by
  obtain ⟨placed, hplaced, hconverted⟩ := converted_of_convert hload hc
  obtain ⟨order, -, hall⟩ := hconverted.order
  obtain ⟨_, _, hapis⟩ := apis_of_convert hc
  refine ⟨⟨placed, hplaced, fun s hs => ?_⟩, (Context.apis_flagged _).of_ok hapis⟩
  obtain ⟨index, _, hrenders⟩ := exists_of_mem_right hall hs
  obtain ⟨n, hn, hnames, hshape⟩ := hrenders.node
  exact ⟨n, List.mem_of_getElem? hn, hnames, (Context.shapeOf_flagged index n).of_ok hshape⟩

def inputRule (d : Document) : List Bool :=
  (d.paths.flatMap (·.operations)).flatMap fun op =>
    op.parameters.map (fun q => isNullable q.required (d.nullable? q.schema)) ++
      op.requestBody.toList.flatMap fun b =>
        b.content.map fun e => isNullable b.required (d.nullable? e.2)

def insisting : String :=
  "\x7bopenapi: '3.1', info: \x7b\x7d, paths: \x7b/p: \x7bpost: \x7bparameters: " ++
    "[\x7bname: q, in: query, required: true, " ++
      "schema: \x7bnullable: true, properties: \x7bk: \x7b\x7d\x7d\x7d\x7d], " ++
    "requestBody: \x7brequired: true, " ++
      "content: \x7ba+json: \x7bschema: \x7bnullable: true\x7d\x7d\x7d\x7d\x7d\x7d\x7d\x7d"

theorem insisting_converts : ∃ d m notes, load insisting {} = .ok (d, []) ∧
    d.convert {} ⟨0, false⟩ = .ok (m, notes) ∧ m.allSchemas.length = 1 ∧
      m.inputFlags = [false, false] ∧ d.inputRule = [true, true] := by
  have hcheck : ((load insisting {}).toOption.any fun x => x.2.isEmpty &&
      (x.1.convert {} ⟨0, false⟩).toOption.any fun y => decide (y.1.allSchemas.length = 1 ∧
        y.1.inputFlags = [false, false] ∧ x.1.inputRule = [true, true])) = true := by
    decide +kernel
  obtain ⟨d, hload, hconverted⟩ := quiet_of_any hcheck
  obtain ⟨⟨m, notes⟩, hc, hmodel⟩ := ok_of_any hconverted
  exact ⟨d, m, notes, hload, hc, of_decide_eq_true hmodel⟩

theorem convert_flagged_insisting : ∃ d m notes, load insisting {} = .ok (d, []) ∧
    d.convert {} ⟨0, false⟩ = .ok (m, notes) ∧ m.allSchemas.length = 1 ∧ m.Flagged d {} := by
  obtain ⟨d, m, notes, hload, hc, hlength, _⟩ := insisting_converts
  exact ⟨d, m, notes, hload, hc, hlength, convert_flagged hload hc⟩

theorem insisting_overlooked : ∃ d m notes, load insisting {} = .ok (d, []) ∧
    d.convert {} ⟨0, false⟩ = .ok (m, notes) ∧
      m.inputFlags = [false, false] ∧ d.inputRule = [true, true] := by
  obtain ⟨d, m, notes, hload, hc, _, hflags⟩ := insisting_converts
  exact ⟨d, m, notes, hload, hc, hflags⟩

end Document

end ApiModel
