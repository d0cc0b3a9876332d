import ApiModel.Proofs.Document.Rooted

namespace ApiModel

namespace Loader

variable {α β : Type} {l : Loading}

def Optionally (good : Arena → α → Prop) (a : Arena) (x : Option α) : Prop :=
  ∀ y, x = some y → good a y

theorem optionally_none {good : Arena → α → Prop} {a : Arena} : Optionally good a none := by
  intro y hy
  cases hy

theorem optionally_some {good : Arena → α → Prop} {a : Arena} {x : α} (h : good a x) :
    Optionally good a (some x) := by
  intro y hy
  cases hy
  exact h

theorem yields_complain (hl : l.Rooted) (message : String) :
    l.Yields (complain message) fun _ _ => True :=
  ⟨⟨hl.parameters, hl.requestBodies, hl.responses, hl.headers⟩, .refl _, trivial⟩

theorem yields_read (hl : l.Rooted) (decoder : Decoder α) (j : Json) (location : String) :
    l.Yields (read decoder j location) fun a _ => a = l.arena := by
  unfold read
  cases decoder j with
  | ok x => exact .pure hl rfl
  | error e =>
    exact ⟨⟨hl.parameters, hl.requestBodies, hl.responses, hl.headers⟩, .refl _, rfl⟩

theorem yields_objectAt (hl : l.Rooted) (j : Option Json) (location : String) :
    l.Yields (objectAt j location) fun _ _ => True := by
  unfold objectAt
  split
  · exact .pure hl trivial
  · exact .pure hl trivial
  · exact (yields_complain hl _).bind fun _ l' hl' _ _ => .pure hl' trivial

theorem yields_schema (hl : l.Rooted) (j : Json) (location : String) :
    l.Yields (schema j location)
      (Optionally fun a id => a.IsRoot id ∧ l.arena.size ≤ id) := by
  unfold schema
  refine (yields_read hl _ _ _).bind fun s l' hl' _ ha => ?_
  cases s with
  | none => exact .pure hl' optionally_none
  | some s =>
    have hg := l'.arena.grows_intern location s
    exact {
      rooted :=
        ⟨fun e he => (hl'.parameters e he).mono hg, fun e he => (hl'.requestBodies e he).mono hg,
          fun e he => (hl'.responses e he).mono hg, fun e he => (hl'.headers e he).mono hg⟩
      grows := hg
      result := optionally_some ⟨l'.arena.isRoot_intern location s, Nat.le_of_eq (by rw [ha])⟩ }

theorem yields_optionalSchema (hl : l.Rooted) (j : Option Json) (location : String) :
    l.Yields (optionalSchema j location) (Optionally Arena.IsRoot) := by
  unfold optionalSchema
  cases j with
  | none => exact .pure hl optionally_none
  | some j => exact (yields_schema hl j location).weaken fun a x h y hy => (h y hy).1

theorem yields_content (hl : l.Rooted) (entries : ContentObject) (location : String) :
    l.Yields (content entries location) Content.Rooted := by
  have mono : ∀ {a b : Arena} {e : String × Option Nat}, a.Grows b →
      Optionally Arena.IsRoot a e.2 → Optionally Arena.IsRoot b e.2 :=
    fun hab he id hid => hab.isRoot (he id hid)
  refine Loading.Yields.mapM _ hl mono fun (mime, media) _ l' hl' => ?_
  refine (yields_optionalSchema hl' _ _).bind fun id l'' hl'' _ hid => ?_
  exact .pure hl'' hid

theorem yields_valueSchema (hl : l.Rooted) (own : Option Json) (entries : Option ContentObject)
    (location : String) :
    l.Yields (valueSchema own entries location) (Optionally Arena.IsRoot) := by
  unfold valueSchema
  split
  · exact (yields_schema hl _ _).weaken fun a x h y hy => (h y hy).1
  · exact yields_optionalSchema hl _ _
  · exact .pure hl optionally_none

theorem yields_shared {good : Arena → α → Prop} (hl : l.Rooted) (s : Section)
    {parts : Loading → OrderedMap String α} (hparts : ∀ entry ∈ parts l, good l.arena entry.2)
    (reference location : String) :
    l.Yields (shared s parts reference location) (Optionally good) := by
  cases hfound : (componentName? s reference).bind (parts l).get? with
  | some part =>
    obtain ⟨name, _, hget⟩ := Option.bind_eq_some_iff.1 hfound
    have hrun : shared s parts reference location l = (pure (some part) : Loader (Option α)) l := by
      simp only [shared, bind, StateT.bind, get, getThe, MonadStateOf.get, StateT.get, pure, hfound]
    exact .of_eq hrun (.pure hl (optionally_some (hparts _ (OrderedMap.mem_of_get? hget))))
  | none =>
    have hrun : shared s parts reference location l =
        (complain (location ++ ": cannot resolve '" ++ reference ++ "'") >>=
          fun _ => (pure none : Loader (Option α))) l := by
      simp only [shared, bind, StateT.bind, get, getThe, MonadStateOf.get, StateT.get, pure, hfound]
    refine .of_eq hrun ((yields_complain hl _).bind fun _ l' hl' _ _ => ?_)
    exact .pure hl' optionally_none

theorem yields_parameter (hl : l.Rooted) (p : OrReference ParameterObject) (location : String) :
    l.Yields (parameter p location) (Optionally Parameter.Rooted) := by
  unfold parameter
  cases p with
  | reference target => exact yields_shared hl _ hl.parameters _ _
  | inPlace p =>
    simp only
    split
    · exact (yields_complain hl _).bind fun _ l' hl' _ _ => .pure hl' optionally_none
    · refine (yields_valueSchema hl _ _ _).bind fun id l' hl' _ hid => ?_
      exact .pure hl' (optionally_some hid)

theorem yields_header (hl : l.Rooted) (h : OrReference HeaderObject) (location : String) :
    l.Yields (header h location) (Optionally Header.Rooted) := by
  unfold header
  cases h with
  | reference target => exact yields_shared hl _ hl.headers _ _
  | inPlace h =>
    refine (yields_valueSchema hl _ _ _).bind fun id l' hl' _ hid => ?_
    exact .pure hl' (optionally_some hid)

theorem yields_requestBody (hl : l.Rooted) (b : OrReference RequestBodyObject)
    (location : String) :
    l.Yields (requestBody b location) (Optionally RequestBody.Rooted) := by
  unfold requestBody
  cases b with
  | reference target => exact yields_shared hl _ hl.requestBodies _ _
  | inPlace b =>
    refine (yields_content hl _ _).bind fun c l' hl' _ hc => ?_
    exact .pure hl' (optionally_some hc)

theorem yields_optionalBody (hl : l.Rooted) (b : Option (OrReference RequestBodyObject))
    (location : String) :
    l.Yields (optionalBody b location) (Optionally RequestBody.Rooted) := by
  unfold optionalBody
  cases b with
  | none => exact .pure hl optionally_none
  | some b => exact yields_requestBody hl b location

theorem yields_entries (good : Arena → β → Prop) (hl : l.Rooted)
    (mono : ∀ {a b x}, a.Grows b → good a x → good b x) (m : OrderedMap String α)
    {load : α → String → Loader (Option β)}
    (h : ∀ x place (l' : Loading), l'.Rooted → l'.Yields (load x place) (Optionally good))
    (location : String) :
    l.Yields (entries m load location) fun a ys => ∀ y ∈ ys, good a y.2 := by
  refine Loading.Yields.filterMapM _ hl (fun hab hx => mono hab hx) fun (name, x) _ l' hl' => ?_
  refine (h x _ l' hl').bind fun y l'' hl'' _ hy => .pure hl'' fun z hz => ?_
  cases y with
  | none => cases hz
  | some y =>
    cases hz
    exact hy y rfl

theorem yields_response (hl : l.Rooted) (r : OrReference ResponseObject) (location : String) :
    l.Yields (response r location) (Optionally Response.Rooted) := by
  unfold response
  cases r with
  | reference target => exact yields_shared hl _ hl.responses _ _
  | inPlace r =>
    refine (yields_content hl _ _).bind fun c l' hl' _ hc => ?_
    refine (yields_entries Header.Rooted hl' (fun hab hx => Header.Rooted.mono hx hab) _
      (fun x place l'' hl'' => yields_header hl'' x place) _).bind fun hs l'' hl'' hg hhs => ?_
    exact .pure hl'' (optionally_some ⟨hc.mono hg, hhs⟩)

theorem yields_parameters (hl : l.Rooted) (ps : List (OrReference ParameterObject))
    (location : String) :
    l.Yields (parameters ps location) fun a xs => ∀ x ∈ xs, x.Rooted a :=
  Loading.Yields.filterMapM Parameter.Rooted hl (fun hab hx => Parameter.Rooted.mono hx hab)
    fun (p, _) _ _ hl' => yields_parameter hl' p _

theorem yields_operation (hl : l.Rooted) (method : HttpMethod) (o : OperationObject)
    (location : String) :
    l.Yields (operation method o location) fun a op => op.Rooted a := by
  unfold operation
  refine (yields_parameters hl _ _).bind fun ps l₁ hl₁ _ hps => ?_
  refine (yields_optionalBody hl₁ _ _).bind fun body l₂ hl₂ hg₂ hbody => ?_
  refine (yields_entries Response.Rooted hl₂ (fun hab hx => Response.Rooted.mono hx hab) _
    (fun x place l' hl' => yields_response hl' x place) _).bind fun rs l₃ hl₃ hg₃ hrs => ?_
  exact .pure hl₃
    ⟨fun p hp => (hps p hp).mono (hg₂.trans hg₃), fun b hb => (hbody b hb).mono hg₃, hrs⟩

theorem yields_operationAt (hl : l.Rooted) (method : HttpMethod) (j : Json) (location : String) :
    l.Yields (operationAt method j location) (Optionally Operation.Rooted) := by
  unfold operationAt
  refine (yields_read hl _ _ _).bind fun o l₁ hl₁ _ _ => ?_
  cases o with
  | none => exact .pure hl₁ optionally_none
  | some o =>
    refine (yields_operation hl₁ _ _ _).bind fun op l₂ hl₂ _ hop => ?_
    exact .pure hl₂ (optionally_some hop)

theorem yields_operations (location : String) (methods : List HttpMethod)
    (raw : OrderedMap String Json) (hl : l.Rooted) :
    l.Yields (operations location methods raw) fun a x => ∀ op ∈ x.1, op.Rooted a := by
  induction methods generalizing raw l with
  | nil => exact .pure hl (by simp)
  | cons method methods ih =>
    unfold operations
    split
    · exact ih _ hl
    · refine (yields_operationAt hl _ _ _).bind fun first l₁ hl₁ _ hfirst => ?_
      refine (ih _ hl₁).bind fun rest l₂ hl₂ hg hrest => ?_
      refine .pure hl₂ fun op hop => ?_
      rcases List.mem_append.1 hop with hop | hop
      · exact (hfirst op (Option.mem_toList.1 hop)).mono hg
      · exact hrest op hop

theorem yields_pathItem (hl : l.Rooted) (path : String) (j : Json) :
    l.Yields (pathItem path j) (Optionally PathItem.Rooted) := by
  unfold pathItem
  simp only
  split
  · split
    · exact (yields_complain hl _).bind fun _ l' hl' _ _ => .pure hl' optionally_none
    · refine (yields_operations _ _ _ hl).bind fun x l₁ hl₁ _ hops => ?_
      refine (yields_read hl₁ _ _ _).bind fun o l₂ hl₂ hg₂ _ => ?_
      refine (yields_parameters hl₂ _ _).bind fun ps l₃ hl₃ hg₃ hps => ?_
      exact .pure hl₃
        (optionally_some ⟨hps, fun op hop => (hops op hop).mono (hg₂.trans hg₃)⟩)
  · exact (yields_complain hl _).bind fun _ l' hl' _ _ => .pure hl' optionally_none

theorem yields_eachEntry (good : Arena → α → Prop) (hl : l.Rooted) (j : Option Json)
    (location : String) {load : Json → String → Loader (Option α)} {keep : String → α → Loader Unit}
    (hload : ∀ j place (l' : Loading), l'.Rooted → l'.Yields (load j place) (Optionally good))
    (hkeep : ∀ name x (l' : Loading), l'.Rooted → good l'.arena x →
      l'.Yields (keep name x) fun _ _ => True) :
    l.Yields (eachEntry j location load keep) fun _ _ => True := by
  unfold eachEntry
  refine (yields_objectAt hl _ _).bind fun m l₁ hl₁ _ _ => ?_
  refine Loading.Yields.forM hl₁ fun (name, j) _ l₂ hl₂ => ?_
  refine (hload j _ l₂ hl₂).bind fun x l₃ hl₃ _ hx => ?_
  cases x with
  | none => exact .pure hl₃ trivial
  | some x => exact hkeep name x l₃ hl₃ (hx x rfl)

theorem yields_readThen {good : Arena → β → Prop} (hl : l.Rooted) (decoder : Decoder α)
    {load : α → String → Loader (Option β)}
    (hload : ∀ x place (l' : Loading), l'.Rooted → l'.Yields (load x place) (Optionally good))
    (j : Json) (location : String) :
    l.Yields (readThen decoder load j location) (Optionally good) := by
  unfold readThen
  refine (yields_read hl _ _ _).bind fun x l₁ hl₁ _ _ => ?_
  cases x with
  | none => exact .pure hl₁ optionally_none
  | some x => exact hload x _ l₁ hl₁

theorem forall_mem_insert {P : β → Prop} {m : OrderedMap String β} (h : ∀ entry ∈ m, P entry.2)
    (name : String) {x : β} (hx : P x) : ∀ entry ∈ m.insert name x, P entry.2 := by
  intro entry he
  rcases OrderedMap.mem_insert he with he | rfl
  · exact h entry he
  · exact hx

theorem yields_sharedParts (hl : l.Rooted) (components : OrderedMap String Json) :
    l.Yields (sharedParts components) fun _ _ => True := by
  unfold sharedParts
  refine (yields_eachEntry Header.Rooted hl _ _
    (fun j place l' hl' =>
      yields_readThen hl' _ (fun x place l'' hl'' => yields_header hl'' x place) j place)
    fun name x l' hl' hx => ⟨⟨hl'.parameters, hl'.requestBodies, hl'.responses,
      forall_mem_insert hl'.headers name hx⟩, .refl _, trivial⟩).bind fun _ l₁ hl₁ _ _ => ?_
  refine (yields_eachEntry Parameter.Rooted hl₁ _ _
    (fun j place l' hl' =>
      yields_readThen hl' _ (fun x place l'' hl'' => yields_parameter hl'' x place) j place)
    fun name x l' hl' hx => ⟨⟨forall_mem_insert hl'.parameters name hx, hl'.requestBodies,
      hl'.responses, hl'.headers⟩, .refl _, trivial⟩).bind fun _ l₂ hl₂ _ _ => ?_
  refine (yields_eachEntry RequestBody.Rooted hl₂ _ _
    (fun j place l' hl' =>
      yields_readThen hl' _ (fun x place l'' hl'' => yields_requestBody hl'' x place) j place)
    fun name x l' hl' hx => ⟨⟨hl'.parameters, forall_mem_insert hl'.requestBodies name hx,
      hl'.responses, hl'.headers⟩, .refl _, trivial⟩).bind fun _ l₃ hl₃ _ _ => ?_
  exact yields_eachEntry Response.Rooted hl₃ _ _
    (fun j place l' hl' =>
      yields_readThen hl' _ (fun x place l'' hl'' => yields_response hl'' x place) j place)
    fun name x l' hl' hx => ⟨⟨hl'.parameters, hl'.requestBodies,
      forall_mem_insert hl'.responses name hx, hl'.headers⟩, .refl _, trivial⟩

theorem yields_schemaEntries (m : OrderedMap String Json) (location : String) (hl : l.Rooted) :
    l.Yields (entries m schema location) fun a ys =>
      (∀ y ∈ ys, a.IsRoot y.2 ∧ l.arena.size ≤ y.2) ∧
        (ys.map Prod.snd).Pairwise (· < ·) := by
  unfold entries
  induction m generalizing l with
  | nil => exact .pure hl (by simp)
  | cons e m ih =>
    obtain ⟨name, j⟩ := e
    rw [List.filterMapM_cons, bind_assoc]
    refine (yields_schema hl _ _).bind fun id l₁ hl₁ hg₁ hid => ?_
    rw [pure_bind]
    have ih := ih hl₁
    cases id with
    | none =>
      exact ih.weaken fun a ys hys =>
        ⟨fun y hy => ⟨(hys.1 y hy).1, Nat.le_trans hg₁.size_le (hys.1 y hy).2⟩, hys.2⟩
    | some id =>
      obtain ⟨hroot, hle⟩ := hid id rfl
      refine ih.bind fun ys l₂ hl₂ hg₂ hys => .pure hl₂ ⟨fun y hy => ?_, ?_⟩
      · rcases List.mem_cons.1 hy with rfl | hy
        · exact ⟨hg₂.isRoot hroot, hle⟩
        · exact ⟨(hys.1 y hy).1, Nat.le_trans hg₁.size_le (hys.1 y hy).2⟩
      · refine List.pairwise_cons.2 ⟨fun i hi => ?_, hys.2⟩
        obtain ⟨y, hy, rfl⟩ := List.mem_map.1 hi
        have h₁ := (hys.1 y hy).2
        have h₂ := hroot.1
        simp only
        omega

theorem yields_schemas (hl : l.Rooted) (j : Option Json) :
    l.Yields (schemas j) fun a ys =>
      (∀ y ∈ ys, a.IsRoot y.2) ∧ (OrderedMap.values ys).Nodup := by
  unfold schemas
  refine (yields_objectAt hl _ _).bind fun m l₁ hl₁ _ _ => ?_
  refine (yields_schemaEntries m _ hl₁).weaken fun a ys hys => ⟨fun y hy => (hys.1 y hy).1, ?_⟩
  exact hys.2.imp fun hlt => Nat.ne_of_lt hlt

theorem grows_markComponents (schemas : OrderedMap String Nat) (a : Arena) :
    a.Grows (schemas.foldl (fun a (name, id) => a.setComponent id (some name)) a) := by
  induction schemas generalizing a with
  | nil => exact .refl a
  | cons e schemas ih =>
    refine Arena.Grows.trans ⟨?_, ?_⟩ (ih (a.setComponent e.2 (some e.1)))
    · exact Nat.le_of_eq (a.size_setComponent e.2 (some e.1)).symm
    · exact fun hid => Arena.isRoot_setComponent.2 hid

theorem yields_markComponents (hl : l.Rooted) (schemas : OrderedMap String Nat) :
    l.Yields (markComponents schemas) fun _ _ => True := by
  have hg := grows_markComponents schemas l.arena
  exact ⟨⟨fun e he => (hl.parameters e he).mono hg, fun e he => (hl.requestBodies e he).mono hg,
    fun e he => (hl.responses e he).mono hg, fun e he => (hl.headers e he).mono hg⟩, hg, trivial⟩

theorem yields_optionalPart (hl : l.Rooted) (decoder : Decoder α) (j : Option Json)
    (location : String) : l.Yields (optionalPart decoder j location) fun _ _ => True := by
  unfold optionalPart
  cases j with
  | none => exact .pure hl trivial
  | some j => exact (yields_read hl _ _ _).weaken fun _ _ _ => trivial

theorem yields_version (hl : l.Rooted) (j : Option Json) :
    l.Yields (version j) fun _ _ => True := by
  unfold version
  split
  · exact (yields_complain hl _).bind fun _ l' hl' _ _ => .pure hl' trivial
  · split
    · exact .pure hl trivial
    · exact (yields_complain hl _).bind fun _ l' hl' _ _ => .pure hl' trivial

theorem yields_info (hl : l.Rooted) (j : Option Json) : l.Yields (info j) fun _ _ => True := by
  unfold info
  split
  · exact (yields_read hl _ _ _).bind fun _ l' hl' _ _ => .pure hl' trivial
  · exact (yields_complain hl _).bind fun _ l' hl' _ _ => .pure hl' trivial

theorem yields_document (hl : l.Rooted) (root : OrderedMap String Json) :
    l.Yields (document root) fun _ d => d.Rooted := by
  unfold document
  refine (yields_version hl _).bind fun _ l₁ hl₁ _ _ => ?_
  refine (yields_info hl₁ _).bind fun _ l₂ hl₂ _ _ => ?_
  refine (yields_optionalPart hl₂ _ _ _).bind fun _ l₃ hl₃ _ _ => ?_
  refine (yields_optionalPart hl₃ _ _ _).bind fun _ l₄ hl₄ _ _ => ?_
  refine (yields_objectAt hl₄ _ _).bind fun components l₅ hl₅ _ _ => ?_
  refine (yields_schemas hl₅ _).bind fun schemas l₆ hl₆ _ hschemas => ?_
  refine (yields_markComponents hl₆ _).bind fun _ l₇ hl₇ hg₇ _ => ?_
  have hsecurity : l₇.Yields (securitySchemes (components.get? "securitySchemes"))
      fun _ _ => True := by
    refine (yields_objectAt hl₇ _ _).bind fun m l' hl' _ _ => ?_
    refine (yields_entries (fun _ _ => True) hl' (fun _ _ => trivial) m
      (fun x place l'' hl'' => (yields_read hl'' _ x place).weaken fun _ _ _ _ _ => trivial)
      _).weaken fun _ _ _ => trivial
  refine hsecurity.bind fun _ l₈ hl₈ hg₈ _ => ?_
  refine (yields_sharedParts hl₈ _).bind fun _ l₉ hl₉ hg₉ _ => ?_
  refine (yields_objectAt hl₉ _ _).bind fun raw l₁₀ hl₁₀ hg₁₀ _ => ?_
  refine (Loading.Yields.filterMapM PathItem.Rooted hl₁₀ (fun hab hx => PathItem.Rooted.mono hx hab)
    fun (path, j) _ l' hl' => yields_pathItem hl' path j).bind fun paths l₁₁ hl₁₁ hg₁₁ hpaths => ?_
  refine ⟨hl₁₁, .refl _, ⟨fun e he => ?_, hschemas.2, hpaths⟩⟩
  exact (hg₇.trans (hg₈.trans (hg₉.trans (hg₁₀.trans hg₁₁)))).isRoot (hschemas.1 e he)

end Loader

theorem Loading.rooted_empty : ({} : Loading).Rooted := by
  constructor <;> intro entry h <;> cases h

namespace Document

theorem rooted_ofRoot (root : OrderedMap String Json) : (ofRoot root).1.Rooted :=
  (Loader.yields_document Loading.rooted_empty root).result

theorem rooted_of_load {text : String} {o : Options} {d : Document} {complaints : List String}
    (h : load text o = .ok (d, complaints)) : d.Rooted := by
  unfold load at h
  cases hroot : root? text with
  | error e =>
    rw [hroot] at h
    cases h
  | ok root =>
    rw [hroot] at h
    have hd := rooted_ofRoot root
    simp only [bind, Except.bind] at h
    split at h
    · cases h
      exact hd
    · cases h

end Document

end ApiModel
