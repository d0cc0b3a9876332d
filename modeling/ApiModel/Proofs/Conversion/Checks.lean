import ApiModel.Proofs.Conversion.Converted
import ApiModel.Proofs.Model.Checked
import ApiModel.Proofs.Union.Exact

namespace ApiModel

namespace Unions

variable {d : Document} {o : Options} {t : ModelTree} {p : Placed}

theorem chain_of_namedReference {id : Nat} {text : String} {names : TypeNames}
    (href : (d.node id).reference = some text)
    (h : t.namedReference d text (d.node id).location = .ok names) :
    (Check.chain id).outcome d = .ok () := by
  have hends : Meets (d.links text (d.node id).location) (d.Ends fun _ => True)
      ConversionError.Expected :=
    Document.links_meets text _ (fun _ _ => trivial) fun _ _ _ _ _ _ => trivial
  obtain ⟨links, hlinks, _⟩ := ok_of_bind h
  obtain ⟨link, hlink, _⟩ := (hends.of_ok hlinks).last
  rw [Check.outcome, Document.chain_of_reference href, Document.resolveChain, hlinks]
  simp only [bind, Except.bind, hlink]
  rfl

theorem chain_of_addMember {union member : Nat} {mapping : OrderedMap String String}
    {acc acc' : List SealedVariant × Placed}
    (h : addMember d union mapping acc member = .ok acc') :
    (Check.chain member).outcome d = .ok () := by
  cases href : (d.node member).reference with
  | none => exact Check.outcome_chain_of_no_reference href
  | some text =>
    obtain ⟨x, hvariant, _⟩ := ok_of_bind h
    rw [variant, href] at hvariant
    obtain ⟨names, hnames, _⟩ := ok_of_bind hvariant
    exact chain_of_namedReference href hnames

theorem chain_of_resolve (h : resolve d t = .ok p) {e : Nat × Nat} (he : e ∈ placedIn t)
    {member : Nat} (hmember : member ∈ (d.node e.2).oneOf) :
    (Check.chain member).outcome d = .ok () := by
  obtain ⟨q, q', hone⟩ := ok_of_foldlM h e he
  obtain ⟨acc, hfold, _⟩ := ok_of_bind hone
  obtain ⟨acc', acc'', hadd⟩ := ok_of_foldlM hfold member hmember
  exact chain_of_addMember hadd

end Unions

namespace Document

variable {d : Document} {o : Options}

/-- The schemas whose types a model writes out: those of what its operations take and give, of the
properties of its objects, and of the elements of its arrays and maps. -/
inductive Typed (d : Document) (o : Options) : Nat → Prop
  | parameter {item : PathItem} {op : Operation} {p : Parameter} {id : Nat} :
      item ∈ d.paths → op ∈ item.selected o →
        p ∈ Parameter.merge item.parameters op.parameters → p.schema = some id → d.Typed o id
  | request {item : PathItem} {op : Operation} {body : RequestBody} {media : String} {id : Nat} :
      item ∈ d.paths → op ∈ item.selected o → op.requestBody = some body →
        body.content.preferred? = some (media, some id) →
          MediaType.requestType media ≠ .unknown → d.Typed o id
  | response {item : PathItem} {op : Operation} {code media : String} {r : Response} {id : Nat} :
      item ∈ d.paths → op ∈ item.selected o → mainResponse? op.responses = some (code, r) →
        r.content.json? = some (media, some id) → d.Typed o id
  | property {object : Nat} {e : String × Nat} : d.Recorded o object .object →
      e ∈ (d.resolveProperties object).properties → d.Typed o e.2
  | shared {id element : Nat} : id ∈ d.schemas.values → d.Reached o id →
      d.ElementOf id element → d.Typed o element
  | member {union id element : Nat} : d.Recorded o union .sealed → id ∈ (d.node union).oneOf →
      d.ElementOf id element → d.Typed o element
  | element {id element : Nat} : d.Typed o id → d.ElementOf id element → d.Typed o element

inductive Requires (d : Document) (o : Options) : Check → Prop
  | kept {id : Nat} : d.KeptAlias o id → d.Requires o (.chain id)
  | member {union id : Nat} : d.Recorded o union .sealed → id ∈ (d.node union).oneOf →
      d.Requires o (.chain id)
  | typed {id : Nat} : d.Typed o id → d.Requires o (.chain id)
  | security {item : PathItem} {op : Operation} : item ∈ d.paths → op ∈ item.selected o →
      d.Requires o (.security item.path op)

end Document

def Check.Holds (d : Document) : Check → Prop
  | .chain id => ∃ target, d.EndsAt id target
  | .security path op => ∃ ids, d.securityIds path op = .ok ids

theorem Check.holds_iff {d : Document} {k : Check} : k.Holds d ↔ k.outcome d = .ok () := by
  have hmap : ∀ {α : Type} (x : Except ConversionError α),
      (∃ a, x = .ok a) ↔ x.map (fun _ => ()) = .ok () := by
    intro α x
    cases x <;> simp [Except.map]
  cases k with
  | chain id => exact Document.chain_ok_iff.symm.trans (hmap _)
  | security path op => exact hmap _

namespace Context

open Relation (ReflTransGen)

variable {c : Context} {id element : Nat} {m : ModelNode} {k : Check}

def Describes (c : Context) (k : Check) : Prop :=
  (∃ m ∈ c.tree.nodes, c.ShapeChecks m k) ∨
    ∃ e ∈ c.selectedOperations, c.OperationChecks e.1 e.2 k

theorem mem_selectedOperations {item : PathItem} {op : Operation} :
    (item, op) ∈ c.selectedOperations ↔ item ∈ c.document.paths ∧ op ∈ item.selected c.options := by
  simp [selectedOperations]

theorem Ready.recorded (h : c.Ready) (hm : m ∈ c.tree.nodes) :
    c.document.Recorded c.options m.id m.kind :=
  h.resolved.built.sound.recorded m.label (List.mem_map.2 ⟨m, hm, rfl⟩)

theorem Ready.exists_node (h : c.Ready) (hc : c.tree.contains id = true) {kind : SchemaClass}
    (hk : classify (c.node id) = .ok kind) : ∃ m ∈ c.tree.nodes, m.id = id ∧ m.kind = kind := by
  obtain ⟨l, hl, rfl⟩ := ModelTree.contains_iff.1 hc
  obtain ⟨m, hm, rfl⟩ := List.mem_map.1 hl
  exact ⟨m, hm, rfl, Except.ok.inj ((h.recorded hm).classify.symm.trans hk)⟩

theorem Ready.describes_elements (h : c.Ready) (hc : c.tree.contains id = true)
    (he : c.document.ElementOf id element) (hk : c.TypeChecks element k) : c.Describes k := by
  obtain ⟨_, ⟨hclass, hitems⟩ | ⟨hclass, hvalues⟩⟩ := he
  · obtain ⟨m, hm, rfl, hkind⟩ := h.exists_node hc hclass
    refine .inl ⟨m, hm, ?_⟩
    rw [ShapeChecks, hkind]
    exact ⟨element, hitems, hk⟩
  · obtain ⟨m, hm, rfl, hkind⟩ := h.exists_node hc hclass
    refine .inl ⟨m, hm, ?_⟩
    rw [ShapeChecks, hkind]
    exact ⟨element, hvalues, hk⟩

theorem describes_operation {item : PathItem} {op : Operation}
    (hitem : item ∈ c.document.paths) (hop : op ∈ item.selected c.options)
    (hk : c.OperationChecks item op k) : c.Describes k :=
  .inr ⟨(item, op), mem_selectedOperations.2 ⟨hitem, hop⟩, hk⟩

theorem Ready.describes_of_typed (h : c.Ready) (ht : c.document.Typed c.options id) :
    ∃ start, (∀ k, c.TypeChecks start k → c.Describes k) ∧ ReflTransGen c.Wraps start id := by
  induction ht with
  | @parameter item op p id hitem hop hp hs =>
    exact ⟨id, fun k hk => describes_operation hitem hop (.inl ⟨p, hp, id, hs, hk⟩), .refl⟩
  | @request item op body media id hitem hop hbody hpreferred hkind =>
    refine ⟨id, fun k hk => describes_operation hitem hop (.inr (.inl ?_)), .refl⟩
    exact ⟨body, media, some id, hbody, hpreferred, hkind, id, rfl, hk⟩
  | @response item op code media r id hitem hop hmain hjson =>
    refine ⟨id, fun k hk => describes_operation hitem hop (.inr (.inr (.inl ?_))), .refl⟩
    exact ⟨code, r, media, some id, hmain, hjson, id, rfl, hk⟩
  | @property object e hobject he =>
    have hplaced := h.resolved.built.needed object .object hobject rfl
    obtain ⟨m, hm, rfl, hkind⟩ := h.exists_node hplaced hobject.classify
    refine ⟨e.2, fun k hk => .inl ⟨m, hm, ?_⟩, .refl⟩
    rw [ShapeChecks, hkind]
    exact ⟨e, he, hk⟩
  | @shared id element hshared hreached helement =>
    obtain ⟨entry, hentry, rfl⟩ := List.mem_map.1 hshared
    obtain ⟨kind, hclass⟩ := (Document.opens_of_no_reference helement.1).1
      (h.followable.opens _ hreached)
    have hroot := (h.rooted.schemas _ hentry).not_isMember
    have hplaced := h.resolved.built.components _ hentry kind
      (.inl ⟨hreached, helement.1, hroot, hclass⟩)
    exact ⟨element, fun k => h.describes_elements hplaced helement, .refl⟩
  | @member union id element hunion hmember helement =>
    obtain ⟨m, hm, rfl, hkind⟩ := h.exists_node
      (h.resolved.built.needed union .sealed hunion rfl) hunion.classify
    have hplaced := h.resolved.built.members m.label (List.mem_map.2 ⟨m, hm, rfl⟩) hkind id hmember
      helement.1
    exact ⟨element, fun k => h.describes_elements hplaced helement, .refl⟩
  | @element id element ht helement ih =>
    cases hnames : c.tree.names? id with
    | none =>
      obtain ⟨start, hstart, hwraps⟩ := ih
      exact ⟨start, hstart, hwraps.tail ⟨hnames, helement⟩⟩
    | some names =>
      obtain ⟨l, hl, hid, _⟩ := ModelTree.names?_some hnames
      have hplaced := ModelTree.contains_iff.2 ⟨l, hl, hid⟩
      exact ⟨element, fun k => h.describes_elements hplaced helement, .refl⟩

theorem typed_of_wraps (ht : c.document.Typed c.options id) {last : Nat}
    (h : ReflTransGen c.Wraps id last) : c.document.Typed c.options last := by
  induction h with
  | refl => exact ht
  | tail _ hwraps ih => exact .element ih hwraps.2

theorem requires_of_typeChecks (ht : c.document.Typed c.options id) (hk : c.TypeChecks id k) :
    c.document.Requires c.options k := by
  obtain ⟨last, hlast, rfl⟩ := hk
  exact .typed (typed_of_wraps ht hlast)

theorem Ready.typed_of_element (h : c.Ready)
    (horigin : ∀ l ∈ c.tree.labels, (l.id ∈ c.document.schemas.values ∨ l.kind.needsName = true) ∨
      ∃ u ∈ c.tree.labels, u.kind = .sealed ∧ c.document.InlineMember u.id l.id)
    (hm : m ∈ c.tree.nodes) (hkind : m.kind.needsName = false)
    (he : c.document.ElementOf m.id element) : c.document.Typed c.options element := by
  have hlabel : m.label ∈ c.tree.labels := List.mem_map.2 ⟨m, hm, rfl⟩
  rcases horigin m.label hlabel with (hshared | hneeds) | ⟨u, hu, hsealed, hmember, _⟩
  · exact .shared hshared (h.recorded hm).reached he
  · cases hkind.symm.trans hneeds
  · have hunion := h.resolved.built.sound.recorded u hu
    rw [hsealed] at hunion
    exact .member hunion hmember he

theorem Ready.requires_of_shape (h : c.Ready)
    (horigin : ∀ l ∈ c.tree.labels, (l.id ∈ c.document.schemas.values ∨ l.kind.needsName = true) ∨
      ∃ u ∈ c.tree.labels, u.kind = .sealed ∧ c.document.InlineMember u.id l.id)
    (hm : m ∈ c.tree.nodes) (hk : c.ShapeChecks m k) : c.document.Requires c.options k := by
  have hrec := h.recorded hm
  unfold ShapeChecks at hk
  cases hkind : m.kind with
  | array =>
    rw [hkind] at hk hrec
    obtain ⟨element, hitems, hk⟩ := hk
    have he : c.document.ElementOf m.id element :=
      ⟨hrec.reference_none nofun, .inl ⟨hrec.classify, hitems⟩⟩
    exact requires_of_typeChecks (h.typed_of_element horigin hm (by rw [hkind]; rfl) he) hk
  | map =>
    rw [hkind] at hk hrec
    obtain ⟨element, hvalues, hk⟩ := hk
    have he : c.document.ElementOf m.id element :=
      ⟨hrec.reference_none nofun, .inr ⟨hrec.classify, hvalues⟩⟩
    exact requires_of_typeChecks (h.typed_of_element horigin hm (by rw [hkind]; rfl) he) hk
  | object =>
    rw [hkind] at hk hrec
    obtain ⟨e, he, hk⟩ := hk
    exact requires_of_typeChecks (.property hrec he) hk
  | ref =>
    rw [hkind] at hk hrec
    subst hk
    rcases hrec with ⟨_, hnone, _, hclass⟩ | ⟨hkept, _⟩
    · rw [classify_ref_iff, hnone] at hclass
      cases hclass
    · exact .kept hkept
  | primitive type =>
    rw [hkind] at hk
    exact hk.elim
  | enum =>
    rw [hkind] at hk
    exact hk.elim
  | sealed =>
    rw [hkind] at hk
    exact hk.elim
  | raw =>
    rw [hkind] at hk
    exact hk.elim

theorem requires_of_operation {e : PathItem × Operation} (he : e ∈ c.selectedOperations)
    (hk : c.OperationChecks e.1 e.2 k) : c.document.Requires c.options k := by
  obtain ⟨item, op⟩ := e
  obtain ⟨hitem, hop⟩ := mem_selectedOperations.1 he
  rcases hk with ⟨p, hp, id, hs, hk⟩ | ⟨b, media, schema, hb, hpreferred, hkind, id, rfl, hk⟩ |
    ⟨code, r, media, schema, hmain, hjson, id, rfl, hk⟩ | rfl
  · exact requires_of_typeChecks (.parameter hitem hop hp hs) hk
  · exact requires_of_typeChecks (.request hitem hop hb hpreferred hkind) hk
  · exact requires_of_typeChecks (.response hitem hop hmain hjson) hk
  · exact .security hitem hop

end Context

namespace Document

variable {d : Document} {o : Options} {placed : Placed}

structure PlacedFrom (d : Document) (o : Options) (placed : Placed) : Prop where
  ready : Context.Ready { document := d, options := o, placed }
  origin : ∀ l ∈ placed.tree.labels, (l.id ∈ d.schemas.values ∨ l.kind.needsName = true) ∨
    ∃ u ∈ placed.tree.labels, u.kind = .sealed ∧ d.InlineMember u.id l.id
  members : ∀ m ∈ placed.tree.nodes, m.kind = .sealed → ∀ member ∈ (d.node m.id).oneOf,
    (Check.chain member).outcome d = .ok ()

theorem placedFrom (hd : d.Rooted) (hplaced : d.placed o = .ok placed) :
    d.PlacedFrom o placed := by
  obtain ⟨hfollow, hresolved⟩ := (placed_meets hd o).of_ok hplaced
  obtain ⟨r, hr, hrest⟩ := ok_of_bind hplaced
  obtain ⟨t, ht, hresolve⟩ := ok_of_bind hrest
  obtain ⟨hbuilt, hstanding⟩ := ModelTree.built_of_build hd hr ht
  obtain ⟨_, h⟩ := (Unions.resolve_settled hd hfollow hbuilt hstanding).of_ok hresolve
  refine ⟨⟨hd, hfollow, hresolved⟩, ?_, fun m hm hk member hmember => ?_⟩
  · rw [h.labels]
    exact fun l hl => hstanding.origin hl
  · have hlabel : m.label ∈ t.labels := h.labels ▸ List.mem_map.2 ⟨m, hm, rfl⟩
    obtain ⟨n, hn, heq⟩ := List.mem_map.1 hlabel
    obtain ⟨index, hindex⟩ := List.getElem?_of_mem hn
    have hid : n.id = m.id := congrArg Label.id heq
    have hkind : n.kind = m.kind := congrArg Label.kind heq
    have hin := Unions.mem_placedIn.2 ⟨n, hindex, hkind.trans hk, rfl⟩
    exact Unions.chain_of_resolve hresolve hin (hid ▸ hmember)

theorem PlacedFrom.describes_or_passes (h : d.PlacedFrom o placed) {k : Check}
    (hk : d.Requires o k) : Context.Describes { document := d, options := o, placed } k ∨
      k.outcome d = .ok () := by
  let c : Context := { document := d, options := o, placed }
  have hready : c.Ready := h.ready
  cases hk with
  | @kept id hkept =>
    obtain ⟨text, href⟩ := Option.isSome_iff_exists.1 hkept.2.2
    obtain ⟨target, htarget⟩ := hready.followable.ends id text hkept href
    refine .inr ?_
    rw [Check.outcome, chain_of_reference href, htarget]
    rfl
  | @member union id hunion hmember =>
    obtain ⟨m, hm, rfl, hkind⟩ := hready.exists_node
      (hready.resolved.built.needed union .sealed hunion rfl) hunion.classify
    exact .inr (h.members m hm hkind id hmember)
  | typed ht =>
    obtain ⟨start, hstart, hwraps⟩ := hready.describes_of_typed ht
    exact .inl (hstart _ ⟨_, hwraps, rfl⟩)
  | security hitem hop =>
    exact .inl (Context.describes_operation hitem hop (.inr (.inr (.inr rfl))))

theorem describe_checked (hd : d.Rooted) (hplaced : d.placed o = .ok placed) :
    Checked d (d.Requires o) (d.describe o) := by
  have h := placedFrom hd hplaced
  let c : Context := { document := d, options := o, placed }
  have hdescribed : Checked d c.Describes (d.describe o) := by
    unfold describe
    rw [hplaced]
    exact h.ready.namedSchemas_checked.bind fun schemas _ => h.ready.apis_checked.bind_pure
  refine ⟨fun x hx k hk => ?_, fun e he => ?_⟩
  · rcases h.describes_or_passes hk with hk | hpasses
    · exact hdescribed.passes x hx k hk
    · exact hpasses
  · obtain ⟨k, hk, houtcome⟩ := hdescribed.blames e he
    refine ⟨k, ?_, houtcome⟩
    rcases hk with ⟨m, hm, hk⟩ | ⟨entry, hentry, hk⟩
    · exact h.ready.requires_of_shape h.origin hm hk
    · exact Context.requires_of_operation hentry hk

theorem exists_describe_iff (hd : d.Rooted) : (∃ x, d.describe o = .ok x) ↔
    (∃ placed, d.placed o = .ok placed) ∧ ∀ k, d.Requires o k → k.Holds d := by
  constructor
  · rintro ⟨x, hx⟩
    have hplaced := (describe_ok_iff.1 hx).1
    refine ⟨⟨x.placed, hplaced⟩, fun k hk => ?_⟩
    exact Check.holds_iff.2 ((describe_checked hd hplaced).passes x hx k hk)
  · rintro ⟨⟨placed, hplaced⟩, hall⟩
    cases hx : d.describe o with
    | ok x => exact ⟨x, rfl⟩
    | error e =>
      obtain ⟨k, hk, houtcome⟩ := (describe_checked hd hplaced).blames e hx
      rw [Check.holds_iff.1 (hall k hk)] at houtcome
      cases houtcome

theorem blamed_of_describe (hd : d.Rooted) {e : ConversionError} (he : d.describe o = .error e) :
    d.placed o = .error e ∨ ∃ k, d.Requires o k ∧ k.outcome d = .error e := by
  cases hplaced : d.placed o with
  | ok placed => exact .inr ((describe_checked hd hplaced).blames e he)
  | error e' =>
    unfold describe at he
    rw [hplaced] at he
    cases he
    exact .inl rfl

theorem convert_ok_iff {text : String} {l : Options} {complaints : List String}
    (hload : load text l = .ok (d, complaints)) (o : Options) (moment : Timestamp) :
    ((∃ x, d.convert o moment = .ok x) ↔
      (∃ placed, d.placed o = .ok placed) ∧ (∀ k, d.Requires o k → k.Holds d) ∧
        moment.HasMailDate) ∧
    (∀ e, d.convert o moment = .error e →
      d.placed o = .error e ∨ (∃ k, d.Requires o k ∧ k.outcome d = .error e) ∨
        ¬moment.HasMailDate ∧ e = .broken (.unwritableYear moment.clock.year)) ∧
    ∀ id reference, (d.node id).reference = some reference → d.LeadsIntoCycle id →
      ¬(Check.chain id).Holds d ∧ (Check.chain id).outcome d =
        .error (.unresolved reference ((d.node id).location ++ " (cyclic alias)")) := by
  have hd := rooted_of_load hload
  refine ⟨?_, fun e he => ?_, fun id reference href hcycle => ⟨?_, ?_⟩⟩
  · rw [exists_convert_iff, exists_describe_iff hd, and_assoc]
  · rcases convert_error_iff.1 he with hx | ⟨-, hundated⟩
    · exact (blamed_of_describe hd hx).imp_right .inl
    · exact .inr (.inr hundated)
  · rintro ⟨target, hends⟩
    exact hends.not_leadsIntoCycle hcycle
  · rw [Check.outcome, chain_of_leadsIntoCycle href hcycle]
    rfl

def circling : String :=
  "\x7bopenapi: '3.1', info: \x7b\x7d, paths: \x7b/p: \x7bget: \x7bresponses: \x7b'200': " ++
    "\x7bcontent: \x7bapplication/json: \x7bschema: \x7b" ++
    "allOf: [\x7b$ref: '#/components/schemas/A'\x7d]\x7d\x7d\x7d\x7d\x7d\x7d\x7d\x7d, " ++
    "components: \x7bschemas: \x7bA: \x7b$ref: '#/components/schemas/B'\x7d, " ++
    "B: \x7b$ref: '#/components/schemas/A'\x7d\x7d\x7d\x7d"

theorem circling_converts : ∃ d r id x, load circling {} = .ok (d, []) ∧
    d.reachable {} = .ok r ∧ id ∈ r.visited ∧
      (d.node id).reference = some "#/components/schemas/A" ∧
        d.resolveChain "#/components/schemas/A" (d.node id).location =
          .error (.unresolved "#/components/schemas/A"
            ((d.node id).location ++ " (cyclic alias)")) ∧
          d.convert {} ⟨0, false⟩ = .ok x := by
  have hcheck : ((load circling {}).toOption.any fun x => x.2.isEmpty &&
      ((x.1.convert {} ⟨0, false⟩).toOption.any fun _ => true) &&
      (x.1.reachable {}).toOption.any fun r => r.visited.any fun id =>
        decide ((x.1.node id).reference = some "#/components/schemas/A") &&
          match x.1.resolveChain "#/components/schemas/A" (x.1.node id).location with
          | .ok _ => false
          | .error e => decide (e = .unresolved "#/components/schemas/A"
              ((x.1.node id).location ++ " (cyclic alias)"))) = true := by
    decide +kernel
  obtain ⟨⟨d, complaints⟩, hload, hrest⟩ := ok_of_any hcheck
  obtain ⟨hrest, hreached⟩ := Bool.and_eq_true_iff.1 hrest
  obtain ⟨hnone, hconverts⟩ := Bool.and_eq_true_iff.1 hrest
  obtain ⟨x, hx, _⟩ := ok_of_any hconverts
  obtain ⟨r, hr, hvisited⟩ := ok_of_any hreached
  obtain ⟨id, hid, hcircles⟩ := List.any_eq_true.1 hvisited
  obtain ⟨href, hchain⟩ := Bool.and_eq_true_iff.1 hcircles
  obtain rfl : complaints = [] := List.isEmpty_iff.1 hnone
  refine ⟨d, r, id, x, hload, hr, hid, of_decide_eq_true href, ?_, hx⟩
  cases he : d.resolveChain "#/components/schemas/A" (d.node id).location with
  | ok target =>
    rw [he] at hchain
    cases hchain
  | error e =>
    rw [he] at hchain
    exact congrArg Except.error (of_decide_eq_true hchain)

theorem convert_ok_iff_circling : ∃ d, load circling {} = .ok (d, []) ∧
    (∃ placed, d.placed {} = .ok placed) ∧ ∀ k, d.Requires {} k → k.Holds d := by
  obtain ⟨d, _, _, x, hload, _, _, _, _, hx⟩ := circling_converts
  obtain ⟨hplaced, hall, _⟩ := (convert_ok_iff hload {} ⟨0, false⟩).1.1 ⟨x, hx⟩
  exact ⟨d, hload, hplaced, hall⟩

theorem circling_let_through : ∃ d r id x, load circling {} = .ok (d, []) ∧
    d.reachable {} = .ok r ∧ id ∈ r.visited ∧ d.LeadsIntoCycle id ∧
      (∀ target, d.chain id ≠ .ok target) ∧ d.convert {} ⟨0, false⟩ = .ok x := by
  obtain ⟨d, r, id, x, hload, hr, hid, href, hchain, hx⟩ := circling_converts
  rw [← chain_of_reference href] at hchain
  refine ⟨d, r, id, x, hload, hr, hid, leadsIntoCycle_of_chain hchain, fun target htarget => ?_, hx⟩
  cases hchain.symm.trans htarget

end Document

end ApiModel
