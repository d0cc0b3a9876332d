import ApiModel.Proofs.Document.Chains
import ApiModel.Proofs.Model.Operations
import ApiModel.Proofs.Model.Rendered

namespace ApiModel

inductive Check where
  | chain (id : Nat)
  | security (path : String) (op : Operation)

def Check.outcome (d : Document) : Check → Except ConversionError Unit
  | .chain id => (d.chain id).map fun _ => ()
  | .security path op => (d.securityIds path op).map fun _ => ()

theorem Check.outcome_chain_of_no_reference {d : Document} {id : Nat}
    (h : (d.node id).reference = none) : (Check.chain id).outcome d = .ok () := by
  rw [outcome, Document.chain, h]
  rfl

/-- A step succeeds only if all of its checks do, and fails with the error of one of them. -/
structure Checked {α : Type} (d : Document) (checks : Check → Prop)
    (x : Except ConversionError α) : Prop where
  passes : ∀ a, x = .ok a → ∀ k, checks k → k.outcome d = .ok ()
  blames : ∀ e, x = .error e → ∃ k, checks k ∧ k.outcome d = .error e

namespace Checked

variable {α β : Type} {d : Document} {checks checks' : Check → Prop} {x : Except ConversionError α}

theorem ok_iff {a : α} :
    Checked d checks (.ok a : Except ConversionError α) ↔ ∀ k, checks k → k.outcome d = .ok () :=
  ⟨fun h => h.passes a rfl, fun h => ⟨fun _ _ => h, nofun⟩⟩

theorem error_iff {e : ConversionError} :
    Checked d checks (.error e : Except ConversionError α) ↔
      ∃ k, checks k ∧ k.outcome d = .error e := by
  refine ⟨fun h => h.blames e rfl, fun h => ⟨nofun, fun e' he => ?_⟩⟩
  cases he
  exact h

theorem of_outcome {k : Check} (h : x.map (fun _ => ()) = k.outcome d) : Checked d (· = k) x := by
  cases x with
  | ok a => exact ok_iff.2 fun k' hk => hk ▸ h.symm
  | error e => exact error_iff.2 ⟨k, rfl, h.symm⟩

theorem none (a : α) : Checked d (fun _ => False) (.ok a) := ok_iff.2 fun _ h => h.elim

theorem congr (h : Checked d checks x) (hiff : ∀ k, checks' k ↔ checks k) :
    Checked d checks' x where
  passes a ha k hk := h.passes a ha k ((hiff k).1 hk)
  blames e he := by
    obtain ⟨k, hk, houtcome⟩ := h.blames e he
    exact ⟨k, (hiff k).2 hk, houtcome⟩

theorem with_passing (h : Checked d checks x) (hpassing : ∀ k, checks' k → k.outcome d = .ok ()) :
    Checked d (fun k => checks' k ∨ checks k) x where
  passes a ha k hk := by
    rcases hk with hk | hk
    · exact hpassing k hk
    · exact h.passes a ha k hk
  blames e he := by
    obtain ⟨k, hk, houtcome⟩ := h.blames e he
    exact ⟨k, .inr hk, houtcome⟩

theorem bind {f : α → Except ConversionError β} (h : Checked d checks x)
    (hf : ∀ a, x = .ok a → Checked d checks' (f a)) :
    Checked d (fun k => checks k ∨ checks' k) (x >>= f) := by
  cases x with
  | error e =>
    obtain ⟨k, hk, houtcome⟩ := h.blames e rfl
    exact error_iff.2 ⟨k, .inl hk, houtcome⟩
  | ok a =>
    have hpasses := ok_iff.1 h
    refine ⟨fun b hb k hk => ?_, fun e he => ?_⟩
    · rcases hk with hk | hk
      · exact hpasses k hk
      · exact (hf a rfl).passes b hb k hk
    · obtain ⟨k, hk, houtcome⟩ := (hf a rfl).blames e he
      exact ⟨k, .inr hk, houtcome⟩

theorem map {f : α → β} (h : Checked d checks x) : Checked d checks (x.map f) := by
  cases x with
  | ok a => exact ok_iff.2 (ok_iff.1 h)
  | error e => exact error_iff.2 (error_iff.1 h)

theorem bind_pure {f : α → β} (h : Checked d checks x) :
    Checked d checks (x >>= fun a => pure (f a)) := by
  cases x with
  | ok a => exact ok_iff.2 (ok_iff.1 h)
  | error e => exact error_iff.2 (error_iff.1 h)

theorem mapM {f : α → Except ConversionError β} {l : List α} {checks : α → Check → Prop}
    (h : ∀ a ∈ l, Checked d (checks a) (f a)) :
    Checked d (fun k => ∃ a ∈ l, checks a k) (l.mapM f) := by
  induction l with
  | nil => exact (none []).congr fun k => by simp
  | cons a l ih =>
    rw [List.mapM_cons]
    have hrest := ih fun a ha => h a (List.mem_cons_of_mem _ ha)
    refine ((h a List.mem_cons_self).bind fun b _ => hrest.bind_pure).congr fun k => ?_
    rw [List.exists_mem_cons_iff]

end Checked

def Document.ElementOf (d : Document) (id element : Nat) : Prop :=
  (d.node id).reference = none ∧
    (classify (d.node id) = .ok .array ∧ (d.node id).items = some element ∨
      classify (d.node id) = .ok .map ∧ (d.node id).values = some element)

theorem Document.ElementOf.unique {d : Document} {id element element' : Nat}
    (h : d.ElementOf id element) (h' : d.ElementOf id element') : element = element' := by
  rcases h.2 with ⟨hk, h⟩ | ⟨hk, h⟩ <;> rcases h'.2 with ⟨hk', h'⟩ | ⟨hk', h'⟩
  · exact Option.some.inj (h.symm.trans h')
  · cases hk.symm.trans hk'
  · cases hk.symm.trans hk'
  · exact Option.some.inj (h.symm.trans h')

namespace Context

open Relation (ReflTransGen)

variable {c : Context} {id last : Nat}

def Wraps (c : Context) (id element : Nat) : Prop :=
  c.tree.names? id = none ∧ c.document.ElementOf id element

def TypeChecks (c : Context) (id : Nat) (k : Check) : Prop :=
  ∃ last, ReflTransGen c.Wraps id last ∧ k = .chain last

theorem typeChecks_of_stop (h : ∀ element, ¬c.Wraps id element) (k : Check) :
    c.TypeChecks id k ↔ k = .chain id := by
  simp only [TypeChecks, Relation.reflTransGen_iff_eq h, exists_eq_left]

theorem typeChecks_of_wraps {element : Nat} (h : c.Wraps id element) (k : Check) :
    c.TypeChecks id k ↔ k = .chain id ∨ c.TypeChecks element k := by
  constructor
  · rintro ⟨last, hlast, rfl⟩
    rcases hlast.cases_head with rfl | ⟨next, hnext, hrest⟩
    · exact .inl rfl
    · obtain rfl := hnext.2.unique h.2
      exact .inr ⟨last, hrest, rfl⟩
  · rintro (rfl | ⟨last, hlast, rfl⟩)
    · exact ⟨id, .refl, rfl⟩
    · exact ⟨last, .head h hlast, rfl⟩

theorem Ready.namedReference_checked (h : c.Ready) (hid : c.document.Reached c.options id)
    {text : String} (href : (c.node id).reference = some text) :
    Checked c.document (· = .chain id) (c.namedReference text (c.node id).location) := by
  refine .of_outcome ?_
  have hmeets := h.namedReference_meets hid href (c.node id).location
  have hends : Meets (c.document.links text (c.node id).location)
      (c.document.Ends fun _ => True) ConversionError.Expected :=
    Document.links_meets text _ (fun _ _ => trivial) fun _ _ _ _ _ _ => trivial
  rw [Check.outcome, Document.chain_of_reference href, Document.resolveChain]
  unfold namedReference ModelTree.namedReference at hmeets ⊢
  change Meets (c.document.links text (c.node id).location >>= _) _ _ at hmeets
  change Except.map _ (c.document.links text (c.node id).location >>= _) =
    Except.map _ (c.document.links text (c.node id).location >>= _)
  cases hlinks : c.document.links text (c.node id).location with
  | error e => rfl
  | ok links =>
    obtain ⟨link, hlink, _⟩ := (hends.of_ok hlinks).last
    rw [hlinks] at hmeets
    simp only [bind, Except.bind, hlink] at hmeets ⊢
    split at hmeets
    · rfl
    · exact hmeets.elim

theorem Ready.needsName_eq_false (h : c.Ready) (hid : c.Usable id)
    (href : (c.node id).reference = none) (hnames : c.tree.names? id = none) {kind : SchemaClass}
    (hk : classify (c.node id) = .ok kind) : kind.needsName = false := by
  rw [Bool.eq_false_iff]
  intro hneeds
  obtain ⟨names, hsome⟩ := ModelTree.names?_isSome
    (h.resolved.built.needed id kind (hid.recorded href hk) hneeds)
  rw [show c.placed.tree = c.tree from rfl, hnames] at hsome
  cases hsome

theorem checked_of_stop {α : Type} (href : (c.node id).reference = none)
    (h : ∀ element, ¬c.Wraps id element) (a : α) :
    Checked c.document (c.TypeChecks id) (.ok a) := by
  have hown := Check.outcome_chain_of_no_reference href
  refine ((Checked.none a).with_passing fun k (hk : k = .chain id) => hk ▸ hown).congr fun k => ?_
  rw [typeChecks_of_stop h, or_false]

theorem checked_of_wraps {α : Type} {x : Except ConversionError α} {element : Nat}
    (h : c.Wraps id element) (hx : Checked c.document (c.TypeChecks element) x) :
    Checked c.document (c.TypeChecks id) x := by
  have hown := Check.outcome_chain_of_no_reference h.2.1
  exact (hx.with_passing fun k (hk : k = .chain id) => hk ▸ hown).congr (typeChecks_of_wraps h)

theorem Ready.typeOf_checked (h : c.Ready) (hid : c.Usable id) :
    Checked c.document (c.TypeChecks id) (c.typeOf id) := by
  fun_induction Context.typeOf c id with
  | case1 id n text href =>
    refine (h.namedReference_checked hid.reached href).map.congr (typeChecks_of_stop ?_)
    rintro element ⟨_, hnone, _⟩
    cases hnone.symm.trans href
  | case2 id n href names hnames =>
    refine checked_of_stop href ?_ _
    rintro element ⟨hnone, _⟩
    cases hnone.symm.trans hnames
  | case3 id n href hnames e hk =>
    obtain ⟨kind, hkind⟩ := (Document.opens_of_no_reference href).1
      (h.followable.opens id hid.reached)
    cases hk.symm.trans hkind
  | case4 id n href hnames type hk =>
    refine checked_of_stop href ?_ _
    rintro element ⟨_, _, ⟨hk', _⟩ | ⟨hk', _⟩⟩ <;> cases hk.symm.trans hk'
  | case5 id n href hnames hk element hitems ih =>
    have hchild := hid.reached.usable_child? href hitems (.inl rfl)
    exact checked_of_wraps ⟨hnames, href, .inl ⟨hk, hitems⟩⟩ (ih hchild).map
  | case6 id n href hnames hk hitems =>
    refine checked_of_stop href ?_ _
    rintro element ⟨_, _, ⟨_, hsome⟩ | ⟨hk', _⟩⟩
    · cases hitems.symm.trans hsome
    · cases hk.symm.trans hk'
  | case7 id n href hnames hk element hvalues ih =>
    have hchild := hid.reached.usable_child? href hvalues (.inr rfl)
    exact checked_of_wraps ⟨hnames, href, .inr ⟨hk, hvalues⟩⟩ (ih hchild).map
  | case8 id n href hnames hk hvalues =>
    refine checked_of_stop href ?_ _
    rintro element ⟨_, _, ⟨hk', _⟩ | ⟨_, hsome⟩⟩
    · cases hk.symm.trans hk'
    · cases hvalues.symm.trans hsome
  | case9 id n href hnames hk =>
    refine checked_of_stop href ?_ _
    rintro element ⟨_, _, ⟨hk', _⟩ | ⟨hk', _⟩⟩ <;> cases hk.symm.trans hk'
  | case10 id n href hnames kind hprimitive harray hmap hraw hk =>
    have hneeds := h.needsName_eq_false hid href hnames hk
    cases kind with
    | primitive type => exact (hprimitive type rfl).elim
    | array => exact (harray rfl).elim
    | map => exact (hmap rfl).elim
    | raw => exact (hraw rfl).elim
    | ref =>
      obtain ⟨text, hsome⟩ := Option.isSome_iff_exists.1 (classify_ref_iff.1 hk)
      cases href.symm.trans hsome
    | enum => cases hneeds
    | object => cases hneeds
    | sealed => cases hneeds

def ValueChecks (c : Context) (schema : Option Nat) (k : Check) : Prop :=
  ∃ id, schema = some id ∧ c.TypeChecks id k

theorem valueChecks_some (k : Check) : c.ValueChecks (some id) k ↔ c.TypeChecks id k := by
  simp [ValueChecks]

theorem Ready.typeOrAny_checked (h : c.Ready) {schema : Option Nat}
    (hs : ∀ id, schema = some id → c.Usable id) :
    Checked c.document (c.ValueChecks schema) (c.typeOrAny schema) := by
  cases schema with
  | none => exact (Checked.none _).congr fun k => by simp [ValueChecks]
  | some id => exact (h.typeOf_checked (hs id rfl)).congr valueChecks_some

theorem Ready.elementType_checked (h : c.Ready) {element : Option Nat}
    (he : ∀ id, element = some id → c.Usable id) :
    Checked c.document (c.ValueChecks element) (c.elementType element) := by
  cases element with
  | none => exact (Checked.none _).congr fun k => by simp [ValueChecks]
  | some id => exact (h.typeOf_checked (he id rfl)).map.congr valueChecks_some

def ShapeChecks (c : Context) (m : ModelNode) (k : Check) : Prop :=
  match m.kind with
  | .array => c.ValueChecks (c.node m.id).items k
  | .map => c.ValueChecks (c.node m.id).values k
  | .object => ∃ e ∈ (c.document.resolveProperties m.id).properties, c.TypeChecks e.2 k
  | .ref => k = .chain m.id
  | .primitive _ | .enum | .sealed | .raw => False

theorem Ready.properties_checked (h : c.Ready) (hid : c.document.Reached c.options id) :
    Checked c.document
      (fun k => ∃ e ∈ (c.document.resolveProperties id).properties, c.TypeChecks e.2 k)
      (c.properties id) := by
  unfold properties
  refine Checked.mapM fun entry he => ?_
  unfold property
  exact (h.typeOf_checked (Document.usable_resolveProperties hid entry he)).bind_pure

theorem Ready.shapeOf_checked (h : c.Ready) {index : Nat} {m : ModelNode}
    (hm : c.tree.node? index = some m) :
    Checked c.document (c.ShapeChecks m) (c.shapeOf index m) := by
  have hlabel : c.tree.labels[index]? = some m.label := ModelTree.getElem?_labels_of_node? hm
  have hrec : c.document.Recorded c.options m.id m.kind :=
    h.resolved.built.sound.recorded _ (List.mem_of_getElem? hlabel)
  have hpart : ∀ slot child, m.kind ≠ .ref → (slot = .items ∨ slot = .values) →
      (c.node m.id).child? slot = some child → c.Usable child := by
    intro slot child hk hs hc
    exact hrec.reached.usable_child? (hrec.reference_none hk) hc hs
  unfold shapeOf ShapeChecks
  cases hk : m.kind with
  | primitive type => exact Checked.none _
  | enum => exact Checked.none _
  | raw => exact Checked.none _
  | array =>
    have hitems : ∀ child, (c.node m.id).items = some child → c.Usable child :=
      fun child => hpart .items child (by simp [hk]) (.inl rfl)
    exact (h.elementType_checked hitems).bind_pure
  | map =>
    have hvalues : ∀ child, (c.node m.id).values = some child → c.Usable child :=
      fun child => hpart .values child (by simp [hk]) (.inr rfl)
    exact (h.elementType_checked hvalues).bind_pure
  | object => exact (h.properties_checked hrec.reached).bind_pure
  | sealed =>
    obtain ⟨shape, hshape⟩ := h.resolved.shapes index m.label hlabel hk
    simp only [show c.unions.shapes.get? index = some shape from hshape]
    exact Checked.none _
  | ref =>
    obtain ⟨text, href⟩ := (hk ▸ hrec).reference_some
    simp only [show (c.node m.id).reference = some text from href]
    exact (h.namedReference_checked hrec.reached href).bind_pure

theorem Ready.parameters_checked (h : c.Ready) {shared own : List Parameter}
    (hshared : ∀ p ∈ shared, ∀ id, p.schema = some id → c.Usable id)
    (hown : ∀ p ∈ own, ∀ id, p.schema = some id → c.Usable id) :
    Checked c.document (fun k => ∃ p ∈ Parameter.merge shared own, c.ValueChecks p.schema k)
      (c.parameters shared own) := by
  unfold parameters
  refine (Checked.mapM fun p hp => ?_).bind_pure
  unfold parameter
  refine (h.typeOrAny_checked ?_).bind_pure
  rcases Parameter.mem_merge hp with hp | hp
  · exact hshared p hp
  · exact hown p hp

def RequestChecks (c : Context) (body : Option RequestBody) (k : Check) : Prop :=
  ∃ b media schema, body = some b ∧ b.content.preferred? = some (media, schema) ∧
    MediaType.requestType media ≠ .unknown ∧ c.ValueChecks schema k

theorem Ready.bodyType_checked (h : c.Ready) (kind : RequestType) {schema : Option Nat}
    (hs : ∀ id, schema = some id → c.Usable id) {β : Type} (f : SimpleType → β) :
    Checked c.document (fun k => kind ≠ .unknown ∧ c.ValueChecks schema k)
      (if kind = .unknown then pure (f .raw)
        else c.typeOrAny schema >>= fun type => pure (f type)) := by
  split
  · next hk => exact (Checked.none _).congr fun k => by simp [hk]
  · next hk => exact (h.typeOrAny_checked hs).bind_pure.congr fun k => by simp [hk]

theorem Ready.requestBody_checked (h : c.Ready) {body : Option RequestBody}
    (hbody : ∀ b, body = some b → ∀ e ∈ b.content, ∀ id, e.2 = some id → c.Usable id) :
    Checked c.document (c.RequestChecks body) (c.requestBody body) := by
  unfold requestBody
  split
  · exact (Checked.none _).congr fun k => by simp [RequestChecks]
  · next b =>
    split
    · next hnone => exact (Checked.none _).congr fun k => by simp [RequestChecks, hnone]
    · next media schema hpreferred =>
      have hbodies := hbody b rfl _ (Content.mem_of_preferred? hpreferred)
      have hiff : ∀ k, c.RequestChecks (some b) k ↔
          MediaType.requestType media ≠ .unknown ∧ c.ValueChecks schema k := by
        simp [RequestChecks, hpreferred]
      generalize MediaType.requestType media = kind at hiff
      exact (h.bodyType_checked kind hbodies fun type =>
        (kind, some (Payload.mk type (isNullable b.required none) b.description))).congr hiff

def ResponseChecks (c : Context) (responses : OrderedMap String Response) (k : Check) : Prop :=
  ∃ code r media schema, mainResponse? responses = some (code, r) ∧
    r.content.json? = some (media, schema) ∧ c.ValueChecks schema k

theorem Ready.response_checked (h : c.Ready) {responses : OrderedMap String Response}
    (hresponses : ∀ r ∈ responses, ∀ e ∈ r.2.content, ∀ id, e.2 = some id → c.Usable id) :
    Checked c.document (c.ResponseChecks responses) (c.response responses) := by
  unfold response
  cases hmain : mainResponse? responses with
  | none => exact (Checked.none _).congr fun k => by simp [ResponseChecks, hmain]
  | some e =>
    obtain ⟨code, r⟩ := e
    have hcontent := hresponses _ (mem_of_mainResponse? hmain)
    have hiff : ∀ k, c.ResponseChecks responses k ↔
        ∃ media schema, r.content.json? = some (media, schema) ∧ c.ValueChecks schema k := by
      simp [ResponseChecks, hmain]
    refine Checked.congr (Checked.bind_pure ?_) hiff
    unfold contentType
    cases hjson : r.content.json? with
    | none => exact (Checked.none _).congr fun k => by simp
    | some e =>
      obtain ⟨media, schema⟩ := e
      have hmem := List.mem_of_find?_eq_some hjson
      cases schema with
      | none => exact (Checked.none _).congr fun k => by simp [ValueChecks]
      | some id =>
        have htype := h.typeOf_checked (hcontent _ hmem id rfl)
        exact htype.bind_pure.congr fun k => by simp [ValueChecks]

def OperationChecks (c : Context) (item : PathItem) (op : Operation) (k : Check) : Prop :=
  (∃ p ∈ Parameter.merge item.parameters op.parameters, c.ValueChecks p.schema k) ∨
    c.RequestChecks op.requestBody k ∨ c.ResponseChecks op.responses k ∨
      k = .security item.path op

theorem Ready.operation_checked (h : c.Ready) {item : PathItem} {op : Operation}
    (hitem : item ∈ c.document.paths) (hop : op ∈ item.selected c.options) :
    Checked c.document (c.OperationChecks item op) (c.operation item op) := by
  obtain ⟨hop, hselected⟩ := List.mem_filter.1 hop
  have hpath := h.rooted.paths item hitem
  have huses : ∀ {id}, op.Uses id → c.Usable id := by
    intro id hu
    exact .of_isRoot (.entry (.used hitem hop hselected hu)) ((hpath.operations op hop).isRoot hu)
  have hshared : ∀ p ∈ item.parameters, ∀ id, p.schema = some id → c.Usable id := by
    intro p hp id hs
    exact .of_isRoot (.entry (.shared hitem hop hselected hp hs)) (hpath.parameters p hp id hs)
  have hbodies : ∀ b, op.requestBody = some b → ∀ e ∈ b.content, ∀ id, e.2 = some id →
      c.Usable id := by
    rintro b hb ⟨media, schema⟩ he id rfl
    exact huses (.request hb he)
  have hresponses : ∀ r ∈ op.responses, ∀ e ∈ r.2.content, ∀ id, e.2 = some id →
      c.Usable id := by
    rintro ⟨code, r⟩ hr ⟨media, schema⟩ he id rfl
    exact huses (.response hr he)
  unfold operation
  refine (h.parameters_checked hshared fun p hp id hs => huses (.parameter hp hs)).bind
    fun parameters _ => ?_
  refine (h.requestBody_checked hbodies).bind fun body _ => ?_
  refine (h.response_checked hresponses).bind fun response _ => ?_
  exact Checked.bind_pure (.of_outcome rfl)

theorem Ready.apis_checked (h : c.Ready) :
    Checked c.document (fun k => ∃ e ∈ c.selectedOperations, c.OperationChecks e.1 e.2 k)
      c.apis := by
  unfold apis
  refine (Checked.mapM fun entry hentry => ?_).bind_pure
  obtain ⟨item, hitem, hmem⟩ := List.mem_flatMap.1 hentry
  obtain ⟨op, hop, rfl⟩ := List.mem_map.1 hmem
  unfold taggedOperation
  exact (h.operation_checked hitem hop).bind_pure

theorem namedSchema_fails (depth index : Nat) : Meets (c.namedSchema depth index) (fun _ => True)
    fun e => (∃ i m, c.tree.node? i = some m ∧ c.shapeOf i m = .error e) ∨ ¬e.Expected := by
  induction depth generalizing index with
  | zero => exact .inr not_false
  | succ depth ih =>
    unfold namedSchema
    cases hm : c.tree.node? index with
    | none => exact .inr not_false
    | some m =>
      simp only
      refine (Meets.mapM_all (fun _ => True) fun child _ => ih child).bind fun children _ _ => ?_
      cases hshape : c.shapeOf index m with
      | error e => exact .inl ⟨index, m, hm, hshape⟩
      | ok shape =>
        simp only [bind, Except.bind]
        split
        · trivial
        · exact .inr not_false

theorem Ready.namedSchemas_checked (h : c.Ready) :
    Checked c.document (fun k => ∃ m ∈ c.tree.nodes, c.ShapeChecks m k) c.namedSchemas := by
  have hmeets := h.namedSchemas_meets
  have hfails : Meets c.namedSchemas (fun _ => True) fun e =>
      (∃ i m, c.tree.node? i = some m ∧ c.shapeOf i m = .error e) ∨ ¬e.Expected :=
    (Meets.mapM_all (fun _ => True) fun i _ => namedSchema_fails _ i).weaken fun _ _ => trivial
  refine ⟨fun schemas hschemas k ⟨m, hm, hk⟩ => ?_, fun e he => ?_⟩
  · obtain ⟨order, hperm, hall⟩ := hmeets.of_ok hschemas
    obtain ⟨i, hi⟩ := List.getElem?_of_mem hm
    have hmem : i ∈ order :=
      hperm.mem_iff.2 (List.mem_range.2 (List.getElem?_eq_some_iff.1 hi).1)
    obtain ⟨s, _, hrenders⟩ := exists_of_mem_right hall.flip hmem
    obtain ⟨m', hm', _, hshape⟩ := hrenders.node
    obtain rfl := Option.some.inj (hm'.symm.trans hi)
    exact (h.shapeOf_checked hm').passes s.shape hshape k hk
  · rcases hfails.of_error he with ⟨i, m, hm, hshape⟩ | hbroken
    · obtain ⟨k, hk, houtcome⟩ := (h.shapeOf_checked hm).blames e hshape
      exact ⟨k, ⟨m, List.mem_of_getElem? hm, hk⟩, houtcome⟩
    · exact (hbroken (hmeets.of_error he)).elim

end Context

end ApiModel
