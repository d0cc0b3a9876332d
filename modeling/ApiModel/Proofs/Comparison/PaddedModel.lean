import ApiModel.Proofs.Comparison.PaddedTree
import ApiModel.Proofs.Conversion.Converted

namespace ApiModel

namespace Document

variable {d d' : Document} {o : Options} {id : Nat}

theorem Padded.mergeSteps (h : d.Padded o d') (hd : d.Rooted) (hf : d.Followable o)
    (hid : d.Reached o id) (counts : Bool) : d'.mergeSteps id counts = d.mergeSteps id counts := by
  simp only [Document.mergeSteps, h.node (hd.lt_of_reached hid)]
  cases href : (d.node id).reference with
  | none => rfl
  | some reference =>
    -- a reference that resolved to nothing could find an added component, but none is reached
    obtain ⟨target, htarget⟩ := (opens_of_reference href).1 (hf.opens id hid)
    simp only [htarget, h.resolve? htarget]

theorem Padded.mergeAll (h : d.Padded o d') (hd : d.Rooted) (hf : d.Followable o)
    {steps : List MergeStep} (hsteps : ∀ step ∈ steps, step.Fits d o) (m : MergedProperties) :
    d'.mergeAll steps m = d.mergeAll steps m := by
  fun_induction Document.mergeAll d steps m with
  | case1 m => rw [Document.mergeAll]
  | case2 id counts rest m ih =>
    obtain ⟨hid, _⟩ := hsteps _ List.mem_cons_self
    rw [Document.mergeAll, h.node (hd.lt_of_reached hid)]
    exact ih fun step hs => hsteps step (List.mem_cons_of_mem _ hs)
  | case3 id counts rest m hopen ih =>
    have hid : d.Reached o id := hsteps _ List.mem_cons_self
    have hlt := Nat.lt_of_lt_of_le hopen.1 h.arena.size_le
    rw [Document.mergeAll, dif_pos ⟨hlt, hopen.2⟩, h.mergeSteps hd hf hid]
    refine ih fun step hs => ?_
    rcases List.mem_append.1 hs with hs | hs
    · exact fits_mergeSteps hid counts step hs
    · exact hsteps step (List.mem_cons_of_mem _ hs)
  | case4 id counts rest m hopen ih =>
    have hlt := hd.lt_of_reached (hsteps _ List.mem_cons_self)
    rw [Document.mergeAll, dif_neg fun hopen' => hopen ⟨hlt, hopen'.2⟩]
    exact ih fun step hs => hsteps step (List.mem_cons_of_mem _ hs)

theorem Padded.resolveProperties (h : d.Padded o d') (hd : d.Rooted) (hf : d.Followable o)
    (hid : d.Reached o id) : d'.resolveProperties id = d.resolveProperties id :=
  h.mergeAll hd hf (by simpa [MergeStep.Fits] using hid) {}

end Document

structure Context.Padded (c c' : Context) : Prop where
  ready : c.Ready
  document : c.document.Padded c.options c'.document
  options : c'.options = c.options
  placed : Placed.Twins c.document.arena c.placed c'.placed

namespace Context

theorem typeOf_eq (c : Context) (id : Nat) : c.typeOf id =
    match (c.node id).reference with
    | some reference => (c.namedReference reference (c.node id).location).map .ref
    | none =>
        match c.tree.names? id with
        | some names => .ok (.ref names)
        | none =>
            match classify (c.node id) with
            | .error e => .error e
            | .ok (.primitive type) => .ok (.primitive type)
            | .ok .array => (c.elementType (c.node id).items).map fun x => .array x.1 x.2
            | .ok .map => (c.elementType (c.node id).values).map fun x => .map x.1 x.2
            | .ok .raw => .ok .any
            | .ok kind => .error (.broken (.violated (.unnamedSchema kind (c.node id).location))) := by
  fun_cases Context.typeOf c id with
  | case5 n href hnames hk element hitems =>
    simp_all +zetaDelta only [elementType]
    cases c.typeOf element <;> rfl
  | case7 n href hnames hk element hvalues =>
    simp_all +zetaDelta only [elementType]
    cases c.typeOf element <;> rfl
  | _ => simp_all +zetaDelta [elementType, Except.map]

namespace Padded

variable {c c' : Context} {id : Nat}

theorem node (h : c.Padded c') (hid : id < c.document.arena.size) : c'.node id = c.node id :=
  h.document.node hid

theorem namedReference (h : c.Padded c') (reference location : String) :
    Simulates Eq (c.namedReference reference location) (c'.namedReference reference location) :=
  h.placed.tree.namedReference h.ready.rooted h.document reference location

theorem elementType (h : c.Padded c') {element : Option Nat}
    (helement : ∀ id, element = some id → id < c.document.arena.size ∧
      Simulates Eq (c.typeOf id) (c'.typeOf id)) :
    Simulates Eq (c.elementType element) (c'.elementType element) := by
  cases element with
  | none => exact .refl _
  | some id =>
    obtain ⟨hid, htype⟩ := helement id rfl
    simp only [Context.elementType, elementNullable, h.node hid]
    exact htype.map_same _

theorem typeOf (h : c.Padded c') (hid : id < c.document.arena.size) :
    Simulates Eq (c.typeOf id) (c'.typeOf id) := by
  induction hn : c.document.arena.size - id using Nat.strongRecOn generalizing id with
  | ind n ih =>
    subst hn
    have helement : ∀ slot, Simulates Eq (c.elementType ((c.node id).child? slot))
        (c'.elementType ((c.node id).child? slot)) := by
      refine fun slot => h.elementType fun child hc => ?_
      obtain ⟨hlt, hsize⟩ := c.node_bounds hc
      exact ⟨hsize, ih (c.document.arena.size - child) (by omega) hsize rfl⟩
    have hnames : c'.tree.names? = c.tree.names? := h.placed.tree.names?
    rw [typeOf_eq, typeOf_eq, h.node hid, hnames]
    cases (c.node id).reference with
    | some reference => exact (h.namedReference _ _).map_same _
    | none =>
      cases c.tree.names? id with
      | some names => exact .refl _
      | none =>
        cases classify (c.node id) with
        | error e => exact .error e
        | ok kind =>
          cases kind with
          | array => exact (helement .items).map_same _
          | map => exact (helement .values).map_same _
          | _ => exact .refl _

theorem childType (h : c.Padded c') (slot : Slot) :
    Simulates Eq (c.elementType ((c.node id).child? slot))
      (c'.elementType ((c.node id).child? slot)) :=
  h.elementType fun _ hc => ⟨(c.node_bounds hc).2, h.typeOf (c.node_bounds hc).2⟩

theorem properties (h : c.Padded c') (hid : c.document.Reached c.options id) :
    Simulates Eq (c.properties id) (c'.properties id) := by
  unfold Context.properties
  rw [h.document.resolveProperties h.ready.rooted h.ready.followable hid]
  refine .mapM_same fun e he => ?_
  have hlt := h.ready.rooted.lt_of_reached (Document.usable_resolveProperties hid e he).reached
  unfold property
  simp only [h.node hlt]
  exact (h.typeOf hlt).bind_same fun _ => .refl _

theorem shapeOf (h : c.Padded c') {index : Nat} {m : ModelNode}
    (hrec : c.document.Recorded c.options m.id m.kind) :
    Simulates Eq (c.shapeOf index m) (c'.shapeOf index m) := by
  unfold Context.shapeOf
  have hid := h.ready.rooted.lt_of_reached hrec.reached
  have hunions : c'.unions = c.unions := h.placed.unions
  simp only [h.node hid, hunions]
  cases m.kind with
  | array => exact (h.childType .items).bind_same fun _ => .refl _
  | map => exact (h.childType .values).bind_same fun _ => .refl _
  | object => exact (h.properties hrec.reached).bind_same fun _ => .refl _
  | ref =>
    cases (c.node m.id).reference with
    | none => exact .error _
    | some reference => exact (h.namedReference _ _).bind_same fun _ => .refl _
  | _ => exact .refl _

theorem namedSchema (h : c.Padded c') (depth index : Nat) :
    Simulates Eq (c.namedSchema depth index) (c'.namedSchema depth index) := by
  induction depth generalizing index with
  | zero => exact .error _
  | succ depth ih =>
    have hnodes : c'.tree.nodes = c.tree.nodes := h.placed.tree.nodes
    unfold Context.namedSchema
    rw [ModelTree.node?, ModelTree.node?, hnodes]
    cases hm : c.tree.nodes[index]? with
    | none => exact .error _
    | some m =>
      have hrec : c.document.Recorded c.options m.id m.kind :=
        h.ready.resolved.built.sound.recorded m.label
          (List.mem_map.2 ⟨m, List.mem_of_getElem? hm, rfl⟩)
      simp only [h.node (h.ready.rooted.lt_of_reached hrec.reached)]
      have hchildren : Simulates Eq (m.children.mapM (c.namedSchema depth))
          (m.children.mapM (c'.namedSchema depth)) := .mapM_same fun child _ => ih child
      exact hchildren.bind_same fun children => (h.shapeOf hrec).bind_same fun shape => .refl _

theorem namedSchemas (h : c.Padded c') : Simulates Eq c.namedSchemas c'.namedSchemas := by
  have hroots : c'.tree.roots = c.tree.roots := h.placed.tree.roots
  have hnodes : c'.tree.nodes = c.tree.nodes := h.placed.tree.nodes
  unfold Context.namedSchemas
  rw [hroots, hnodes]
  exact .mapM_same fun root _ => h.namedSchema _ root

theorem typeOrAny (h : c.Padded c') {schema : Option Nat}
    (hschema : ∀ id, schema = some id → id < c.document.arena.size) :
    Simulates Eq (c.typeOrAny schema) (c'.typeOrAny schema) := by
  cases schema with
  | none => exact .refl _
  | some id => exact h.typeOf (hschema id rfl)

theorem parameters (h : c.Padded c') {shared own : List Parameter}
    (hshared : ∀ p ∈ shared, ∀ id, p.schema = some id → id < c.document.arena.size)
    (hown : ∀ p ∈ own, ∀ id, p.schema = some id → id < c.document.arena.size) :
    Simulates Eq (c.parameters shared own) (c'.parameters shared own) := by
  unfold Context.parameters
  refine Simulates.bind_same (.mapM_same fun p hp => ?_) fun _ => .refl _
  have hschema : ∀ id, p.schema = some id → id < c.document.arena.size := by
    rcases Parameter.mem_merge hp with hp | hp
    · exact hshared p hp
    · exact hown p hp
  exact (h.typeOrAny hschema).bind_same fun _ => .refl _

theorem requestBody (h : c.Padded c') {body : Option RequestBody}
    (hbody : ∀ b, body = some b → ∀ e ∈ b.content, ∀ id, e.2 = some id →
      id < c.document.arena.size) :
    Simulates Eq (c.requestBody body) (c'.requestBody body) := by
  unfold Context.requestBody
  cases body with
  | none => exact .refl _
  | some b =>
    cases hpreferred : b.content.preferred? with
    | none => simp only [hpreferred]; exact .refl _
    | some e =>
      obtain ⟨name, schema⟩ := e
      simp only [hpreferred]
      have htype := h.typeOrAny (hbody b rfl _ (Content.mem_of_preferred? hpreferred))
      split
      · exact .refl _
      · exact htype.bind_same fun _ => .refl _

theorem contentType (h : c.Padded c') {content : Content}
    (hcontent : ∀ e ∈ content, ∀ id, e.2 = some id → id < c.document.arena.size) :
    Simulates Eq (c.contentType content) (c'.contentType content) := by
  unfold Context.contentType
  cases hjson : content.json? with
  | none => exact .refl _
  | some e =>
    obtain ⟨name, schema⟩ := e
    cases schema with
    | none => exact .refl _
    | some id =>
      have hid := hcontent _ (List.mem_of_find?_eq_some hjson) id rfl
      simp only [elementNullable, h.node hid]
      exact (h.typeOf hid).bind_same fun _ => .refl _

theorem response (h : c.Padded c') {responses : OrderedMap String Response}
    (hresponses : ∀ r ∈ responses, ∀ e ∈ r.2.content, ∀ id, e.2 = some id →
      id < c.document.arena.size) :
    Simulates Eq (c.response responses) (c'.response responses) := by
  unfold Context.response
  cases hmain : mainResponse? responses with
  | none => exact .refl _
  | some e =>
    simp only
    exact (h.contentType (hresponses _ (mem_of_mainResponse? hmain))).bind_same
      fun _ => .refl _

theorem operation (h : c.Padded c') {item item' : PathItem} {op : Operation}
    (hitem : item ∈ c.document.paths) (hop : op ∈ item.operations)
    (hpad : item.Padded c.options item') :
    Simulates Eq (c.operation item op) (c'.operation item' op) := by
  have hpath := h.ready.rooted.paths item hitem
  have huses : ∀ {id}, op.Uses id → id < c.document.arena.size :=
    fun hu => ((hpath.operations op hop).isRoot hu).1
  have hids : c'.document.securityIds item.path op = c.document.securityIds item.path op := by
    rw [h.document.rest]
    rfl
  unfold Context.operation
  rw [hpad.parameters, hpad.path, hids]
  refine (h.parameters (fun p hp id hs => (hpath.parameters p hp id hs).1)
    fun p hp id hs => huses (.parameter hp hs)).bind_same fun parameters => ?_
  refine (h.requestBody ?_).bind_same fun body => ?_
  · rintro b hb ⟨media, schema⟩ he id rfl
    exact huses (.request hb he)
  refine (h.response ?_).bind_same fun response => ?_
  · rintro ⟨code, r⟩ hr ⟨media, schema⟩ he id rfl
    exact huses (.response hr he)
  simp only [Operation.serverOverride, hpad.servers]
  exact .refl _

theorem selectedOperations (h : c.Padded c') :
    List.Forall₂ (fun e e' => e'.2 = e.2 ∧ e.1.Padded c.options e'.1) c.selectedOperations
      c'.selectedOperations := by
  refine List.rel_flatMap h.document.paths fun item item' hitem => ?_
  rw [h.options, hitem.selected, List.forall₂_map_left_iff, List.forall₂_map_right_iff]
  exact List.forall₂_same.2 fun op _ => ⟨rfl, hitem⟩

theorem apis (h : c.Padded c') : Simulates Eq c.apis c'.apis := by
  unfold Context.apis
  refine Simulates.bind_same (.mapM h.selectedOperations fun e e' he hpad => ?_) fun _ => .refl _
  obtain ⟨item, hitem, hmem⟩ := List.mem_flatMap.1 he
  obtain ⟨op, hop, rfl⟩ := List.mem_map.1 hmem
  obtain ⟨item', op'⟩ := e'
  obtain ⟨heq, hpad⟩ := hpad
  cases heq
  unfold taggedOperation
  rw [h.options]
  exact (h.operation hitem (List.mem_of_mem_filter hop) hpad).bind_same fun _ => .refl _

end Padded

end Context

namespace Document

variable {d d' : Document} {o : Options}

theorem Padded.describe (h : d.Padded o d') (hd : d.Rooted)
    (hall : o.generateAllNamedSchemas = false) :
    Simulates (fun x x' => x'.schemas = x.schemas ∧ x'.apis = x.apis ∧
      x'.placed.unions = x.placed.unions) (d.describe o) (d'.describe o) := by
  unfold Document.describe
  refine (h.placed hd hall).bind fun placed placed' hplaced htwins => ?_
  obtain ⟨hfollow, hresolved⟩ := (placed_meets hd o).of_ok hplaced
  have hcontext : Context.Padded { document := d, options := o, placed }
      { document := d', options := o, placed := placed' } :=
    ⟨⟨hd, hfollow, hresolved⟩, h, rfl, htwins⟩
  refine hcontext.namedSchemas.bind_same fun schemas => hcontext.apis.bind_same fun apis => ?_
  exact .ok ⟨rfl, rfl, htwins.unions⟩

theorem Padded.convert (h : d.Padded o d') (hd : d.Rooted)
    (hall : o.generateAllNamedSchemas = false) (moment : Timestamp) :
    Simulates (fun x x' => x'.1 = x.1) (d.convert o moment) (d'.convert o moment) := by
  unfold Document.convert
  refine (h.describe hd hall).bind fun x x' _ ⟨hschemas, hapis, hunions⟩ => ?_
  have hinfo : d'.info = d.info := by rw [h.rest]
  have hmetadata : d'.metadata o moment.truncate = d.metadata o moment.truncate := by
    rw [h.rest]
    rfl
  have hschemes : d'.supportedSchemes = d.supportedSchemes := by
    rw [h.rest]
    rfl
  simp only [hinfo, hmetadata, hschemes, hschemas, hapis, hunions]
  exact (Simulates.refl _).bind_same fun header => .ok rfl

theorem convert_padded {text : String} {l : Options} {complaints : List String}
    (hload : load text l = .ok (d, complaints)) (hall : o.generateAllNamedSchemas = false)
    (hpad : d.Padded o d') {moment : Timestamp} {m : SpecModel} {notes : List Note}
    (hc : d.convert o moment = .ok (m, notes)) :
    ∃ notes', d'.convert o moment = .ok (m, notes') := by
  obtain ⟨⟨m', notes'⟩, hc', rfl⟩ := hpad.convert (rooted_of_load hload) hall moment _ hc
  exact ⟨notes', hc'⟩

def pad (d : Document) (name : String) (s : SchemaObject) (op : Operation) : Document :=
  { d with
    arena := d.arena.intern "#" s
    schemas := (name, d.arena.size) :: d.schemas
    paths := d.paths.map fun item => { item with operations := op :: item.operations } }

theorem padded_pad {name : String} {s : SchemaObject} {op : Operation}
    (hname : name ∉ d.schemas.keys) (hs : (Extensions.read s.extensions "#").1.forced ≠ some true)
    (hop : op.isSelected o = false) : d.Padded o (d.pad name s op) where
  arena := ⟨_, rfl⟩
  schemas := by
    refine .insert ⟨hname, Nat.le_refl _, ?_⟩ (.refl _)
    have hnode : (d.pad name s op).node d.arena.size =
        (s.layOut "#" d.arena.size)[0]?.getD {} := by
      simp only [Document.node, Arena.node, pad, Arena.intern, Arena.size,
        Array.getElem?_append_right (Nat.le_refl _), Nat.sub_self, List.getElem?_toArray]
    rw [hnode]
    cases s
    exact hs
  paths := by
    rw [pad, List.forall₂_map_right_iff]
    exact List.forall₂_same.2 fun item _ => ⟨.insert hop (.refl _), rfl⟩
  rest := rfl

def tagged : String :=
  "\x7bopenapi: '3.1', info: \x7b\x7d, " ++
    "paths: \x7b/p: \x7bpost: \x7btags: [t], requestBody: \x7bcontent: " ++
    "\x7ba: \x7bschema: \x7b$ref: '#/components/schemas/A'\x7d\x7d\x7d\x7d\x7d\x7d\x7d, " ++
    "components: \x7bschemas: \x7bA: \x7bproperties: \x7bk: \x7b\x7d\x7d\x7d\x7d\x7d\x7d"

def padding (d : Document) : Document :=
  d.pad "a" (.mk { reference := some "#/components/schemas/B" } [] [])
    ⟨.get, none, [], [], some ⟨none, none, [("a", some d.arena.size)]⟩, [], false, none, none⟩

theorem convert_padded_tagged : ∃ d m notes notes', load tagged {} = .ok (d, []) ∧
    d.convert { limitApis := ["t"] } ⟨0, false⟩ = .ok (m, notes) ∧ m.allSchemas.length = 1 ∧
      m.apis.length = 1 ∧
        d.padding.convert { limitApis := ["t"] } ⟨0, false⟩ = .ok (m, notes') := by
  have hcheck : ((load tagged {}).toOption.any fun x =>
      (x.2.isEmpty && decide ("a" ∉ x.1.schemas.keys)) &&
        (x.1.convert { limitApis := ["t"] } ⟨0, false⟩).toOption.any fun y =>
          decide (y.1.allSchemas.length = 1 ∧ y.1.apis.length = 1)) = true := by
    decide +kernel
  obtain ⟨⟨d, complaints⟩, hload, hrest⟩ := ok_of_any hcheck
  obtain ⟨hloaded, hconverted⟩ := Bool.and_eq_true_iff.1 hrest
  obtain ⟨hnone, hname⟩ := Bool.and_eq_true_iff.1 hloaded
  obtain ⟨⟨m, notes⟩, hc, hmodel⟩ := ok_of_any hconverted
  obtain rfl : complaints = [] := List.isEmpty_iff.1 hnone
  obtain ⟨hschemas, hapis⟩ := of_decide_eq_true hmodel
  have hpad : d.Padded { limitApis := ["t"] } d.padding :=
    padded_pad (of_decide_eq_true hname) (by decide) rfl
  obtain ⟨notes', hc'⟩ := convert_padded hload rfl hpad hc
  exact ⟨d, m, notes, notes', hload, hc, hschemas, hapis, hc'⟩

end Document

end ApiModel
