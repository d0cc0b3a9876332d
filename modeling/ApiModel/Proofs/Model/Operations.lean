import ApiModel.Proofs.Conversion.Grouping
import ApiModel.Proofs.Model.Usage

namespace ApiModel

def SpecOperation.mentions (op : SpecOperation) : List TypeNames :=
  op.parameters.flatMap (·.type.mentions) ++ op.body.toList.flatMap (·.type.mentions) ++
    op.response.type.mentions

theorem Parameter.mem_merge {shared own : List Parameter} {p : Parameter}
    (h : p ∈ merge shared own) : p ∈ shared ∨ p ∈ own := by
  rcases List.mem_append.1 h with h | h
  · exact .inl (List.mem_filter.1 h).1
  · exact .inr h

theorem SpecParameter.mem_sorted {ps : List SpecParameter} {p : SpecParameter}
    (h : p ∈ sorted ps) : p ∈ ps := by
  obtain ⟨location, _, h⟩ := List.mem_flatMap.1 h
  exact (List.mem_filter.1 h).1

theorem Content.mem_of_preferred? {content : Content} {e : String × Option Nat}
    (h : content.preferred? = some e) : e ∈ content := by
  rcases Option.or_eq_some_iff.1 h with h | ⟨_, h⟩
  · obtain ⟨name, _, h⟩ := List.exists_of_findSome?_eq_some h
    exact List.mem_of_find?_eq_some h
  · exact List.mem_of_head? h

theorem mem_of_leastSuccess? {responses : OrderedMap String Response} {n : Nat} {code : String}
    {response : Response} (h : leastSuccess? responses = some (n, code, response)) :
    (code, response) ∈ responses := by
  induction responses generalizing n code response with
  | nil => cases h
  | cons first rest ih =>
    unfold leastSuccess? at h
    split at h
    · exact List.mem_cons_of_mem _ (ih h)
    · cases h
      exact List.mem_cons_self
    · next other _ hrest =>
      split at h
      · cases h
        exact List.mem_cons_self
      · cases h
        exact List.mem_cons_of_mem _ (ih hrest)

theorem mem_of_mainResponse? {responses : OrderedMap String Response} {e : String × Response}
    (h : mainResponse? responses = some e) : e ∈ responses := by
  rcases Option.or_eq_some_iff.1 h with h | ⟨_, h⟩
  · obtain ⟨⟨n, code, response⟩, hleast, rfl⟩ := Option.map_eq_some_iff.1 h
    exact mem_of_leastSuccess? hleast
  · exact List.mem_of_head? h

theorem Document.securityIds_meets (d : Document) (path : String) (op : Operation) :
    Meets (d.securityIds path op) (fun _ => True) ConversionError.Expected := by
  refine (Meets.mapM_all (fun _ => True) fun name _ => ?_).weaken fun _ _ => trivial
  unfold securityId
  split
  · trivial
  · split <;> trivial

theorem mem_groupByName {P : SpecOperation → Prop} {entries : List (String × SpecOperation)}
    (h : ∀ e ∈ entries, P e.2) : ∀ api ∈ groupByName entries, ∀ op ∈ api.operations, P op := by
  intro api hapi op hop
  rw [groupByName_eq] at hapi
  obtain ⟨name, -, rfl⟩ := List.mem_map.1 hapi
  obtain ⟨e, he, hlisted⟩ := List.mem_filterMap.1 hop
  split at hlisted
  · cases hlisted
    exact h e he
  · cases hlisted

namespace Context

variable {c : Context}

theorem Ready.typeOrAny_meets (h : c.Ready) {schema : Option Nat}
    (hs : ∀ id, schema = some id → c.Usable id) :
    Meets (c.typeOrAny schema) (fun type => ∀ names ∈ type.mentions, c.tree.Named names)
      ConversionError.Expected := by
  cases schema with
  | none => simp [typeOrAny, SimpleType.mentions]
  | some id => exact h.typeOf_meets (hs id rfl)

theorem Ready.parameters_meets (h : c.Ready) {shared own : List Parameter}
    (hshared : ∀ p ∈ shared, ∀ id, p.schema = some id → c.Usable id)
    (hown : ∀ p ∈ own, ∀ id, p.schema = some id → c.Usable id) :
    Meets (c.parameters shared own)
      (fun ps => ∀ p ∈ ps, ∀ names ∈ p.type.mentions, c.tree.Named names)
      ConversionError.Expected := by
  unfold parameters
  refine (Meets.mapM_all (fun p => ∀ names ∈ p.type.mentions, c.tree.Named names)
    fun p hp => ?_).bind fun ps _ hps p hp => hps p (SpecParameter.mem_sorted hp)
  unfold parameter
  refine (h.typeOrAny_meets ?_).bind fun type _ ht => ht
  rcases Parameter.mem_merge hp with hp | hp
  · exact hshared p hp
  · exact hown p hp

theorem Ready.requestBody_meets (h : c.Ready) {body : Option RequestBody}
    (hbody : ∀ b, body = some b → ∀ e ∈ b.content, ∀ id, e.2 = some id → c.Usable id) :
    Meets (c.requestBody body)
      (fun x => ∀ p ∈ x.2, ∀ names ∈ p.type.mentions, c.tree.Named names)
      ConversionError.Expected := by
  unfold requestBody
  split
  · simp
  · next b =>
    split
    · simp
    · next name schema hpreferred =>
      have hschema := h.typeOrAny_meets (hbody b rfl _ (Content.mem_of_preferred? hpreferred))
      generalize MediaType.requestType name = kind
      by_cases hk : kind = .unknown
      · simp [hk, SimpleType.mentions]
      · simp only [hk, if_false]
        exact hschema.bind fun type _ ht => by simpa using ht

theorem Ready.contentType_meets (h : c.Ready) {content : Content}
    (hcontent : ∀ e ∈ content, ∀ id, e.2 = some id → c.Usable id) :
    Meets (c.contentType content) (fun x => ∀ names ∈ x.1.mentions, c.tree.Named names)
      ConversionError.Expected := by
  unfold contentType
  split
  · next name schema hjson =>
    have hmem := List.mem_of_find?_eq_some hjson
    exact (h.typeOf_meets (hcontent _ hmem schema rfl)).bind fun type _ ht => ht
  · simp [SimpleType.mentions]
  · split <;> simp [SimpleType.mentions]

theorem Ready.response_meets (h : c.Ready) {responses : OrderedMap String Response}
    (hresponses : ∀ r ∈ responses, ∀ e ∈ r.2.content, ∀ id, e.2 = some id → c.Usable id) :
    Meets (c.response responses) (fun p => ∀ names ∈ p.type.mentions, c.tree.Named names)
      ConversionError.Expected := by
  unfold response
  split
  · simp [SimpleType.mentions]
  · next code r hmain =>
    exact (h.contentType_meets (hresponses _ (mem_of_mainResponse? hmain))).bind fun x _ hx => hx

theorem Ready.operation_meets (h : c.Ready) {item : PathItem} {op : Operation}
    (hitem : item ∈ c.document.paths) (hop : op ∈ item.selected c.options) :
    Meets (c.operation item op) (fun s => ∀ names ∈ s.mentions, c.tree.Named names)
      ConversionError.Expected := by
  obtain ⟨hop, hselected⟩ := List.mem_filter.1 hop
  have hpath := h.rooted.paths item hitem
  have huses : ∀ {id}, op.Uses id → c.Usable id := by
    intro id hu
    exact .of_isRoot (.entry (.used hitem hop hselected hu)) ((hpath.operations op hop).isRoot hu)
  have hshared : ∀ p ∈ item.parameters, ∀ id, p.schema = some id → c.Usable id := by
    intro p hp id hs
    exact .of_isRoot (.entry (.shared hitem hop hselected hp hs)) (hpath.parameters p hp id hs)
  unfold operation
  refine (h.parameters_meets hshared fun p hp id hs => huses (.parameter hp hs)).bind
    fun parameters _ hparameters => ?_
  have hbodies : ∀ b, op.requestBody = some b → ∀ e ∈ b.content, ∀ id, e.2 = some id →
      c.Usable id := by
    rintro b hb ⟨media, schema⟩ he id rfl
    exact huses (.request hb he)
  have hresponses : ∀ r ∈ op.responses, ∀ e ∈ r.2.content, ∀ id, e.2 = some id →
      c.Usable id := by
    rintro ⟨code, r⟩ hr ⟨media, schema⟩ he id rfl
    exact huses (.response hr he)
  refine (h.requestBody_meets hbodies).bind fun ⟨requestType, body⟩ _ hbody => ?_
  refine (h.response_meets hresponses).bind fun response _ hresponse => ?_
  refine (c.document.securityIds_meets item.path op).bind fun ids _ _ => ?_
  intro names hn
  simp only [SpecOperation.mentions, List.mem_append, List.mem_flatMap, Option.mem_toList] at hn
  rcases hn with (⟨p, hp, hn⟩ | ⟨p, hp, hn⟩) | hn
  · exact hparameters p hp names hn
  · exact hbody p hp names hn
  · exact hresponse names hn

theorem Ready.apis_meets (h : c.Ready) :
    Meets c.apis (fun apis => ∀ api ∈ apis, ∀ op ∈ api.operations,
      ∀ names ∈ op.mentions, c.tree.Named names) ConversionError.Expected := by
  unfold apis
  refine (Meets.mapM_all (fun entries => ∀ e ∈ entries,
    ∀ names ∈ e.2.mentions, c.tree.Named names) fun entry hentry => ?_).bind fun groups _ hgroups => ?_
  · obtain ⟨item, hitem, hmem⟩ := List.mem_flatMap.1 hentry
    obtain ⟨op, hop, rfl⟩ := List.mem_map.1 hmem
    unfold taggedOperation
    refine (h.operation_meets hitem hop).bind fun described _ hdescribed e he => ?_
    obtain ⟨tag, _, rfl⟩ := List.mem_map.1 he
    exact hdescribed
  · refine mem_groupByName (P := fun op => ∀ names ∈ op.mentions, c.tree.Named names)
      fun e he => ?_
    obtain ⟨entries, hentries, he⟩ := List.mem_flatten.1 he
    exact hgroups entries hentries e he

end Context

end ApiModel
