import ApiModel.Proofs.Document.Declared
import ApiModel.Proofs.Document.Rooted

namespace ApiModel

namespace Arena

theorem keeps_intern (a : Arena) (location : String) (s : SchemaObject) :
    a.Keeps (a.intern location s) := by
  intro location' s' id h place n hn
  obtain ⟨mark, hm⟩ := h place n hn
  obtain ⟨hlt, _⟩ := Array.getElem?_eq_some_iff.1 hm
  exact ⟨mark, (Array.getElem?_append_left hlt).trans hm⟩

theorem holds_intern (a : Arena) (location : String) (s : SchemaObject) :
    (a.intern location s).Holds location s a.size := by
  intro place n hn
  refine ⟨n.component, ?_⟩
  change (a.nodes ++ (s.layOut location a.nodes.size).toArray)[a.nodes.size + place]? = some n
  rw [Array.getElem?_append_right (Nat.le_add_right _ _), List.getElem?_toArray,
    Nat.add_sub_cancel_left]
  exact hn

theorem keeps_setComponent (a : Arena) (id : Nat) (name : Option String) :
    a.Keeps (a.setComponent id name) := by
  intro location s base h place n hn
  obtain ⟨mark, hm⟩ := h place n hn
  rw [setComponent, Array.getElem?_modify, hm]
  split
  · exact ⟨name, rfl⟩
  · exact ⟨mark, rfl⟩

end Arena

def Stored {α β : Type} (declared : Declarations) (s : Section) (decode : Decoder α)
    (become : String → α → β → Prop) (e : String × β) : Prop :=
  ∃ j r, declared s e.1 j ∧ decode j = .ok r ∧ become (s.location e.1) r e.2

structure Loading.Faithful (declared : Declarations) (l : Loading) : Prop where
  headers : ∀ e ∈ l.headers, Stored declared .headers (OrReference.decode HeaderObject.decode)
    (HeaderUse declared l.arena) e
  parameters : ∀ e ∈ l.parameters, Stored declared .parameters
    (OrReference.decode ParameterObject.decode) (ParameterUse declared l.arena) e
  requestBodies : ∀ e ∈ l.requestBodies, Stored declared .requestBodies
    (OrReference.decode RequestBodyObject.decode) (RequestBodyUse declared l.arena) e
  responses : ∀ e ∈ l.responses, Stored declared .responses
    (OrReference.decode ResponseObject.decode) (ResponseUse declared l.arena) e

theorem Stored.mono {α β : Type} {declared : Declarations} {s : Section} {decode : Decoder α}
    {become become' : String → α → β → Prop}
    (hmono : ∀ location x y, become location x y → become' location x y) {e : String × β}
    (h : Stored declared s decode become e) : Stored declared s decode become' e := by
  obtain ⟨j, r, hj, hr, hbecome⟩ := h
  exact ⟨j, r, hj, hr, hmono _ _ _ hbecome⟩

namespace Loading

structure Before (l l' : Loading) : Prop where
  complaints : l.complaints <+: l'.complaints
  arena : l.arena.Keeps l'.arena

theorem Before.refl (l : Loading) : l.Before l := ⟨List.prefix_refl _, .refl _⟩

theorem Before.trans {l l' l'' : Loading} (h : l.Before l') (h' : l'.Before l'') : l.Before l'' :=
  ⟨h.complaints.trans h'.complaints, h.arena.trans h'.arena⟩

theorem Before.quiet {l l' l'' : Loading} (h : l.Before l') (h' : l'.Before l'')
    (hq : l''.complaints = l.complaints) :
    l'.complaints = l.complaints ∧ l''.complaints = l'.complaints := by
  have hle := h.complaints.length_le
  have hle' := h'.complaints.length_le
  have hlength : l'.complaints.length = l.complaints.length := by
    rw [hq] at hle'
    exact Nat.le_antisymm hle' hle
  have heq := (h.complaints.eq_of_length hlength.symm).symm
  exact ⟨heq, hq.trans heq.symm⟩

/-- From `l` a loader adds complaints and schemas only. When it adds no complaint, the shared parts
it leaves are faithful to their declarations, as they were before, and its result has a property. -/
structure Leaves {α : Type} (declared : Declarations) (l : Loading) (m : Loader α)
    (good : Arena → α → Prop) : Prop where
  before : l.Before (m l).2
  quiet : (m l).2.complaints = l.complaints → l.Faithful declared →
    (m l).2.Faithful declared ∧ good (m l).2.arena (m l).1

namespace Leaves

variable {α β : Type} {declared : Declarations} {l : Loading} {good : Arena → α → Prop}

theorem pure {x : α} (h : good l.arena x) : l.Leaves declared (Pure.pure x : Loader α) good :=
  ⟨.refl l, fun _ hf => ⟨hf, h⟩⟩

theorem bind {m : Loader α} {f : α → Loader β} {good' : Arena → β → Prop}
    (h : l.Leaves declared m good)
    (hf : ∀ x (l' : Loading), l.Before l' →
      l'.Leaves declared (f x) fun a y => good l'.arena x → good' a y) :
    l.Leaves declared (m >>= f) good' := by
  have h' := hf (m l).1 (m l).2 h.before
  refine ⟨h.before.trans h'.before, fun hq hfaithful => ?_⟩
  obtain ⟨hq₁, hq₂⟩ := h.before.quiet h'.before hq
  obtain ⟨hfaithful₁, hgood⟩ := h.quiet hq₁ hfaithful
  obtain ⟨hfaithful₂, hgood'⟩ := h'.quiet hq₂ hfaithful₁
  exact ⟨hfaithful₂, hgood' hgood⟩

theorem bind_good {m : Loader α} {f : α → Loader β} {good' : Arena → β → Prop}
    (h : l.Leaves declared m good) (hbefore : ∀ x (l' : Loading), l'.Before (f x l').2)
    (hf : ∀ x (l' : Loading), good l'.arena x → l'.Leaves declared (f x) good') :
    l.Leaves declared (m >>= f) good' := by
  have hbefore' := hbefore (m l).1 (m l).2
  refine ⟨h.before.trans hbefore', fun hq hfaithful => ?_⟩
  obtain ⟨hq₁, hq₂⟩ := h.before.quiet hbefore' hq
  obtain ⟨hfaithful₁, hgood⟩ := h.quiet hq₁ hfaithful
  exact (hf _ _ hgood).quiet hq₂ hfaithful₁

theorem weaken {m : Loader α} {good' : Arena → α → Prop} (h : l.Leaves declared m good)
    (hg : ∀ a x, good a x → good' a x) : l.Leaves declared m good' :=
  ⟨h.before, fun hq hf => (h.quiet hq hf).imp_right (hg _ _)⟩

theorem of_eq {m m' : Loader α} (heq : m l = m' l) (h : l.Leaves declared m' good) :
    l.Leaves declared m good := by
  refine ⟨heq ▸ h.before, fun hq hf => ?_⟩
  rw [heq] at hq ⊢
  exact h.quiet hq hf

theorem mapM {f : α → Loader β} {xs : List α} (R : Arena → α → β → Prop)
    (mono : ∀ {a b x y}, a.Keeps b → R a x y → R b x y)
    (h : ∀ x ∈ xs, ∀ l' : Loading, l'.Leaves declared (f x) fun a y => R a x y) :
    l.Leaves declared (xs.mapM f) fun a ys => List.Forall₂ (R a) xs ys := by
  induction xs generalizing l with
  | nil => exact pure .nil
  | cons x xs ih =>
    rw [List.mapM_cons]
    refine (h x List.mem_cons_self l).bind fun y l' _ => ?_
    refine (ih fun x hx => h x (List.mem_cons_of_mem _ hx)).bind fun ys l'' hl'' => ?_
    exact pure fun hys hy => .cons (mono hl''.arena hy) hys

theorem filterMapM {f : α → Loader (Option β)} {xs : List α} (R : Arena → α → β → Prop)
    (mono : ∀ {a b x y}, a.Keeps b → R a x y → R b x y)
    (h : ∀ x ∈ xs, ∀ l' : Loading,
      l'.Leaves declared (f x) fun a y => ∃ z, y = some z ∧ R a x z) :
    l.Leaves declared (xs.filterMapM f) fun a ys => List.Forall₂ (R a) xs ys := by
  induction xs generalizing l with
  | nil => exact pure .nil
  | cons x xs ih =>
    rw [List.filterMapM_cons]
    refine (h x List.mem_cons_self l).bind fun y l' _ => ?_
    have ih := @ih l' fun x hx => h x (List.mem_cons_of_mem _ hx)
    cases y with
    | none =>
      refine ih.weaken fun a ys _ ⟨z, hz, _⟩ => ?_
      cases hz
    | some z =>
      refine ih.bind fun ys l'' hl'' => pure fun hys ⟨z', hz', hR⟩ => ?_
      cases hz'
      exact .cons (mono hl''.arena hR) hys

theorem forM {f : α → Loader Unit} {xs : List α}
    (h : ∀ x ∈ xs, ∀ l' : Loading, l'.Leaves declared (f x) fun _ _ => True) :
    l.Leaves declared (xs.forM f) fun _ _ => True := by
  induction xs generalizing l with
  | nil => exact pure trivial
  | cons x xs ih =>
    refine (h x List.mem_cons_self l).bind fun _ l' _ => ?_
    exact (ih fun x hx => h x (List.mem_cons_of_mem _ hx)).weaken fun _ _ _ _ => trivial

end Leaves

theorem Faithful.of_tables {declared : Declarations} {l l' : Loading} (h : l.Faithful declared)
    (hl : l.Before l') (hheaders : l'.headers = l.headers)
    (hparameters : l'.parameters = l.parameters)
    (hrequestBodies : l'.requestBodies = l.requestBodies)
    (hresponses : l'.responses = l.responses) : l'.Faithful declared where
  headers e he := (h.headers e (hheaders ▸ he)).mono fun _ _ _ => HeaderUse.mono hl.arena
  parameters e he := (h.parameters e (hparameters ▸ he)).mono fun _ _ _ =>
    ParameterUse.mono hl.arena
  requestBodies e he := (h.requestBodies e (hrequestBodies ▸ he)).mono fun _ _ _ =>
    RequestBodyUse.mono hl.arena
  responses e he := (h.responses e (hresponses ▸ he)).mono fun _ _ _ => ResponseUse.mono hl.arena

end Loading

namespace Loader

variable {α β : Type} {declared : Declarations} {l : Loading}

theorem leaves_complain (message : String) {good : Arena → Unit → Prop} :
    l.Leaves declared (complain message) good := by
  refine ⟨⟨List.prefix_append _ _, .refl _⟩, fun hq => ?_⟩
  have hlength := congrArg List.length hq
  simp [complain, modify, modifyGet, MonadStateOf.modifyGet, StateT.modifyGet, pure] at hlength

theorem leaves_complaint (message : String) (x : α) {good : Arena → α → Prop} :
    l.Leaves declared (do complain message; return x) good :=
  (leaves_complain message : l.Leaves declared _ fun _ _ => False).bind
    fun _ _ _ => .pure fun h => h.elim

theorem leaves_read (decoder : Decoder α) (j : Json) (location : String) :
    l.Leaves declared (read decoder j location) fun _ x => ∃ y, x = some y ∧ decoder j = .ok y := by
  unfold read
  cases decoder j with
  | ok y => exact .pure ⟨y, rfl, rfl⟩
  | error e => exact leaves_complaint _ _

theorem leaves_schema (j : Json) (location : String) :
    l.Leaves declared (schema j location)
      fun a x => ∃ id, x = some id ∧ j.Becomes a location id := by
  unfold schema
  refine (leaves_read _ _ _).bind fun s l' _ => ?_
  cases s with
  | none =>
    refine .pure fun ⟨y, hy, _⟩ => ?_
    cases hy
  | some s =>
    have hbefore : l'.Before { l' with
        arena := l'.arena.intern location s
        complaints := l'.complaints ++ s.complaints location } :=
      ⟨List.prefix_append _ _, l'.arena.keeps_intern location s⟩
    refine ⟨hbefore, fun _ hf => ⟨hf.of_tables hbefore rfl rfl rfl rfl, fun ⟨y, hy, hs⟩ => ?_⟩⟩
    cases hy
    exact ⟨l'.arena.size, rfl, s, hs, l'.arena.holds_intern location s⟩

theorem leaves_optionalSchema (j : Option Json) (location : String) :
    l.Leaves declared (optionalSchema j location)
      fun a x => Option.Rel (fun j id => Json.Becomes a j location id) j x := by
  unfold optionalSchema
  cases j with
  | none => exact .pure .none
  | some j =>
    refine (leaves_schema j location).weaken fun a x ⟨id, hid, h⟩ => ?_
    subst hid
    exact .some h

theorem leaves_content (c : ContentObject) (location : String) :
    l.Leaves declared (content c location) fun a c' => c.Becomes a location c' := by
  refine Loading.Leaves.mapM _ (fun hab h => ⟨h.1, optionRel_mono (fun _ _ => hab.json) h.2⟩)
    fun e _ l' => ?_
  exact (leaves_optionalSchema _ _).bind fun id l'' _ => .pure fun hid => ⟨rfl, hid⟩

theorem leaves_valueSchema (own : Option Json) (entries : Option ContentObject)
    (location : String) :
    l.Leaves declared (valueSchema own entries location)
      fun a id => ValueBecomes a location own entries id := by
  unfold valueSchema
  split
  · next j =>
    refine (leaves_schema j (location ++ "/schema")).weaken fun a x ⟨id, hid, h⟩ => ?_
    subst hid
    exact .some h
  · next mime media rest =>
    refine (leaves_optionalSchema media.schema _).weaken fun a x h => ?_
    cases hs : media.schema with
    | none =>
      rw [hs] at h
      cases h
      rw [ValueBecomes, schemaSource, hs]
      exact .none
    | some j =>
      rw [hs] at h
      rw [ValueBecomes, schemaSource, hs]
      cases h with
      | some h => exact .some h
  · next h =>
    refine .pure ?_
    cases entries with
    | none => exact .none
    | some c =>
      cases c with
      | nil => exact .none
      | cons e rest => exact (h e.1 e.2 rest rfl).elim

theorem shared_of_some {s : Section} {parts : Loading → OrderedMap String β} {target : String}
    {part : β} (h : (componentName? s target).bind (parts l).get? = some part) (location : String) :
    shared s parts target location l = (pure (some part) : Loader (Option β)) l := by
  simp only [shared, bind, StateT.bind, get, getThe, MonadStateOf.get, StateT.get, pure, h]

theorem shared_of_none {s : Section} {parts : Loading → OrderedMap String β} {target : String}
    (h : (componentName? s target).bind (parts l).get? = none) (location : String) :
    shared s parts target location l =
      (do complain (location ++ ": cannot resolve '" ++ target ++ "'"); return none :
        Loader (Option β)) l := by
  simp only [shared, bind, StateT.bind, get, getThe, MonadStateOf.get, StateT.get, pure, h]

theorem leaves_shared {γ : Type} (s : Section) {parts : Loading → OrderedMap String β}
    {decode : Decoder (OrReference γ)} {become : Arena → String → γ → β → Prop}
    (hparts : l.Faithful declared → ∀ e ∈ parts l, Stored declared s decode
      (OrReference.Becomes declared s decode (become l.arena)) e) (target location : String) :
    l.Leaves declared (shared s parts target location) fun a x => ∃ y, x = some y ∧
      OrReference.Becomes declared s decode (become a) location (.reference target) y := by
  cases hfound : (componentName? s target).bind (parts l).get? with
  | some part =>
    refine .of_eq (shared_of_some hfound location) ⟨.refl l, fun _ hf => ⟨hf, part, rfl, ?_⟩⟩
    obtain ⟨name, hname, hget⟩ := Option.bind_eq_some_iff.1 hfound
    obtain ⟨j, r, hj, hr, hbecomes⟩ := hparts hf _ (OrderedMap.mem_of_get? hget)
    exact .shared hname hj hr hbecomes
  | none => exact .of_eq (shared_of_none hfound location) (leaves_complaint _ _)

theorem leaves_parameter (p : OrReference ParameterObject) (location : String) :
    l.Leaves declared (parameter p location)
      fun a x => ∃ q, x = some q ∧ ParameterUse declared a location p q := by
  unfold parameter
  cases p with
  | reference target => exact leaves_shared .parameters (fun hf => hf.parameters) target location
  | inPlace p =>
    simp only
    split
    · exact leaves_complaint _ _
    · next place hplace =>
      refine (leaves_valueSchema _ _ _).bind fun id l' _ => .pure fun hid => ?_
      exact ⟨_, rfl, .inPlace ⟨rfl, hplace, rfl, rfl, hid⟩⟩

theorem leaves_header (h : OrReference HeaderObject) (location : String) :
    l.Leaves declared (header h location)
      fun a x => ∃ g, x = some g ∧ HeaderUse declared a location h g := by
  unfold header
  cases h with
  | reference target => exact leaves_shared .headers (fun hf => hf.headers) target location
  | inPlace h =>
    refine (leaves_valueSchema _ _ _).bind fun id l' _ => .pure fun hid => ?_
    exact ⟨_, rfl, .inPlace ⟨rfl, rfl, hid⟩⟩

theorem leaves_requestBody (b : OrReference RequestBodyObject) (location : String) :
    l.Leaves declared (requestBody b location)
      fun a x => ∃ c, x = some c ∧ RequestBodyUse declared a location b c := by
  unfold requestBody
  cases b with
  | reference target =>
    exact leaves_shared .requestBodies (fun hf => hf.requestBodies) target location
  | inPlace b =>
    refine (leaves_content _ _).bind fun c l' _ => .pure fun hc => ?_
    exact ⟨_, rfl, .inPlace ⟨rfl, rfl, hc⟩⟩

theorem leaves_optionalBody (b : Option (OrReference RequestBodyObject)) (location : String) :
    l.Leaves declared (optionalBody b location)
      fun a x => Option.Rel (RequestBodyUse declared a location) b x := by
  unfold optionalBody
  cases b with
  | none => exact .pure .none
  | some b =>
    refine (leaves_requestBody b location).weaken fun a x ⟨c, hc, h⟩ => ?_
    subst hc
    exact .some h

theorem leaves_entries (become : Arena → String → α → β → Prop)
    (mono : ∀ {a b place x y}, a.Keeps b → become a place x y → become b place x y)
    (m : OrderedMap String α) {load : α → String → Loader (Option β)}
    (h : ∀ x place (l' : Loading),
      l'.Leaves declared (load x place) fun a r => ∃ y, r = some y ∧ become a place x y)
    (location : String) :
    l.Leaves declared (entries m load location)
      fun a m' => EntriesBecome (become a) location m m' := by
  refine Loading.Leaves.filterMapM _ (fun hab he => ⟨he.1, mono hab he.2⟩) fun e _ l' => ?_
  refine (h e.2 _ l').bind fun r l'' _ => .pure fun ⟨y, hy, hbecome⟩ => ?_
  subst hy
  exact ⟨_, rfl, rfl, hbecome⟩

theorem leaves_response (r : OrReference ResponseObject) (location : String) :
    l.Leaves declared (response r location)
      fun a x => ∃ q, x = some q ∧ ResponseUse declared a location r q := by
  unfold response
  cases r with
  | reference target => exact leaves_shared .responses (fun hf => hf.responses) target location
  | inPlace r =>
    refine (leaves_content _ _).bind fun c l' _ => ?_
    refine (leaves_entries (HeaderUse declared) (fun hab h => HeaderUse.mono hab h) r.headers
      (fun h place l'' => leaves_header h place) _).bind fun hs l'' hl'' => ?_
    exact .pure fun hhs hc => ⟨_, rfl, .inPlace ⟨rfl, hc.mono hl''.arena, hhs⟩⟩

theorem leaves_parameters (ps : List (OrReference ParameterObject)) (location : String) :
    l.Leaves declared (parameters ps location)
      fun a qs => ParametersBecome declared a location ps qs :=
  Loading.Leaves.filterMapM _ (fun hab h => ParameterUse.mono hab h)
    fun (p, _) _ _ => leaves_parameter p _

theorem leaves_operation (method : HttpMethod) (o : OperationObject) (location : String) :
    l.Leaves declared (operation method o location)
      fun a op => op.method = method ∧ o.Becomes declared a location op := by
  unfold operation
  refine (leaves_parameters _ _).bind fun ps l₁ _ => ?_
  refine (leaves_optionalBody _ _).bind fun body l₂ hl₂ => ?_
  refine (leaves_entries (ResponseUse declared) (fun hab h => ResponseUse.mono hab h) _
    (fun r place l' => leaves_response r place) _).bind fun rs l₃ hl₃ => ?_
  refine .pure fun hrs hbody hps => ⟨rfl, ?_⟩
  exact {
    operationId := rfl
    tags := rfl
    parameters := hps.mono (hl₂.trans hl₃).arena
    requestBody := optionRel_mono (fun _ _ => RequestBodyUse.mono hl₃.arena) hbody
    responses := hrs
    deprecated := rfl
    security := rfl
    servers := rfl }

theorem leaves_operationAt (method : HttpMethod) (j : Json) (location : String) :
    l.Leaves declared (operationAt method j location) fun a x => ∃ op, x = some op ∧
      op.method = method ∧ ∃ o, OperationObject.decode j = .ok o ∧
        o.Becomes declared a location op := by
  unfold operationAt
  refine (leaves_read _ _ _).bind fun o l' _ => ?_
  cases o with
  | none =>
    refine .pure fun ⟨y, hy, _⟩ => ?_
    cases hy
  | some o =>
    refine (leaves_operation method o location).bind fun op l'' _ => .pure fun hop ⟨y, hy, ho⟩ => ?_
    cases hy
    exact ⟨op, rfl, hop.1, o, ho, hop.2⟩

section Methods

variable {raw : OrderedMap String Json} {method : HttpMethod} {methods : List HttpMethod}

theorem filterMap_take (hraw : raw.keys.Nodup) (hfresh : method.key ∉ methods.map HttpMethod.key) :
    (method :: methods).filterMap (fun m => (raw.get? m.key).map (m, ·)) =
      ((raw.take method.key).1.map (method, ·)).toList ++
        methods.filterMap fun m => ((raw.take method.key).2.get? m.key).map (m, ·) := by
  obtain ⟨hfound, -, hothers⟩ := OrderedMap.take_spec hraw method.key
  have hsame : (methods.filterMap fun m => ((raw.take method.key).2.get? m.key).map (m, ·)) =
      methods.filterMap fun m => (raw.get? m.key).map (m, ·) := by
    refine List.filterMap_congr fun m hm => ?_
    rw [hothers m.key fun he => hfresh (he ▸ List.mem_map_of_mem hm)]
  rw [hsame, hfound, List.filterMap_cons]
  cases raw.get? method.key <;> rfl

theorem get?_of_take (hraw : raw.keys.Nodup) {left : OrderedMap String Json}
    (hleft : ∀ key, key ∉ methods.map HttpMethod.key →
      left.get? key = (raw.take method.key).2.get? key) :
    ∀ key, key ∉ (method :: methods).map HttpMethod.key → left.get? key = raw.get? key := by
  intro key hkey
  obtain ⟨hne, hkey⟩ := not_or.1 (List.mem_cons.not.1 hkey)
  rw [hleft key hkey, (OrderedMap.take_spec hraw method.key).2.2 key hne]

end Methods

theorem leaves_operations (location : String) (methods : List HttpMethod)
    (hmethods : (methods.map HttpMethod.key).Nodup) (raw : OrderedMap String Json)
    (hraw : raw.keys.Nodup) :
    l.Leaves declared (operations location methods raw) fun a x =>
      List.Forall₂ (fun e op => op.method = e.1 ∧ ∃ o, OperationObject.decode e.2 = .ok o ∧
        o.Becomes declared a (location ++ "/" ++ e.1.key) op)
        (methods.filterMap fun method => (raw.get? method.key).map (method, ·)) x.1 ∧
      x.2.keys.Nodup ∧ ∀ key, key ∉ methods.map HttpMethod.key → x.2.get? key = raw.get? key := by
  induction methods generalizing l raw with
  | nil => exact .pure ⟨.nil, hraw, fun _ _ => rfl⟩
  | cons method methods ih =>
    obtain ⟨hfresh, hmethods⟩ := List.nodup_cons.1 hmethods
    have hrest := (OrderedMap.take_spec hraw method.key).2.1
    have ih := fun l' => @ih l' hmethods _ hrest
    have hleft := @get?_of_take raw method methods hraw
    rw [filterMap_take hraw hfresh]
    unfold operations
    split
    · next raw' htake =>
      rw [htake] at ih hleft ⊢
      exact (ih l).weaken fun a x h => ⟨h.1, h.2.1, hleft h.2.2⟩
    · next j raw' htake =>
      rw [htake] at ih hleft ⊢
      refine (leaves_operationAt method j _).bind fun first l₁ _ => ?_
      refine (ih l₁).bind fun x l₂ hl₂ => .pure fun hothers hfirst => ?_
      obtain ⟨hall, hnodup, hx⟩ := hothers
      obtain ⟨op, rfl, hmethod, o, ho, hbecomes⟩ := hfirst
      exact ⟨.cons ⟨hmethod, o, ho, hbecomes.mono hl₂.arena⟩ hall, hnodup, hleft hx⟩

theorem declaredParameters_of_decode {raw rest : OrderedMap String Json} {o : PathItemObject}
    (hrest : rest.keys.Nodup) (hsame : rest.get? "parameters" = raw.get? "parameters")
    (h : PathItemObject.decode (.object rest) = .ok o) :
    declaredParameters raw = .ok o.parameters := by
  have hfield := Decoder.readEntries_field PathItemObject.parameters "parameters"
    (.list (OrReference.decode ParameterObject.decode)) ?_ ?_ (by decide) hrest
    (Decoder.readEntries_of_record h)
  · unfold declaredParameters
    rw [← hsame]
    cases hget : rest.get? "parameters" with
    | none =>
      rw [hget] at hfield
      exact congrArg Except.ok hfield.symm
    | some j =>
      rw [hget] at hfield
      exact hfield
  · intro field hfind j s s' hj
    cases hfind
    obtain ⟨v, hv, rfl⟩ := ok_of_map hj
    exact hv
  · intro field hfield hne j s s' hj
    rcases List.mem_cons.1 hfield with rfl | hfield
    · exact (hne rfl).elim
    · obtain rfl := List.mem_singleton.1 hfield
      obtain ⟨v, _, rfl⟩ := ok_of_map hj
      rfl

theorem methodKeys_nodup : (HttpMethod.all.map HttpMethod.key).Nodup := by decide

theorem leaves_pathItem (path : String) (j : Json) (hj : j.Distinct) :
    l.Leaves declared (pathItem path j)
      fun a x => ∃ item, x = some item ∧ PathBecomes declared a (path, j) item := by
  unfold pathItem
  simp only
  split
  · next raw =>
    have hraw : (OrderedMap.keys raw).Nodup := by
      cases hj with
      | object hkeys _ => exact hkeys
    split
    · exact leaves_complaint _ _
    · refine (leaves_operations _ HttpMethod.all methodKeys_nodup raw hraw).bind fun x l₁ _ => ?_
      refine (leaves_read _ _ _).bind fun o l₂ hl₂ => ?_
      refine (leaves_parameters _ _).bind fun ps l₃ hl₃ => ?_
      refine .pure fun hps hread hoperations => ?_
      obtain ⟨o', rfl, hdecode⟩ := hread
      obtain ⟨hops, hrest, hsame⟩ := hoperations
      refine ⟨_, rfl, rfl, raw, rfl, ?_, o'.parameters, ?_, hps⟩
      · refine hops.imp fun e op hop => ?_
        obtain ⟨hmethod, o, ho, hbecomes⟩ := hop
        exact ⟨hmethod, o, ho, hbecomes.mono (hl₂.trans hl₃).arena⟩
      · exact declaredParameters_of_decode hrest (hsame _ (by decide)) hdecode
  · exact leaves_complaint _ _

theorem objectAt_eq (j : Option Json) (location : String) :
    objectAt j location = (if j.all Json.isObject then pure ()
      else complain (location ++ ": expected an object")) >>= fun _ => pure (Json.entriesOf j) := by
  unfold objectAt
  split
  · rfl
  · rfl
  · next j hj =>
    cases j with
    | object entries => exact (hj entries rfl).elim
    | _ => rfl

theorem leaves_check (b : Bool) (message : String) :
    l.Leaves declared (if b then pure () else complain message) fun _ _ => True := by
  split
  · exact .pure trivial
  · exact leaves_complain message

theorem leaves_readThen {become : Arena → String → α → β → Prop} {decode : Decoder α}
    {load : α → String → Loader (Option β)}
    (hload : ∀ r place (l' : Loading),
      l'.Leaves declared (load r place) fun a x => ∃ y, x = some y ∧ become a place r y)
    (j : Json) (location : String) :
    l.Leaves declared (readThen decode load j location) fun a x =>
      ∃ y, x = some y ∧ ∃ r, decode j = .ok r ∧ become a location r y := by
  unfold readThen
  refine (leaves_read _ _ _).bind fun r l' _ => ?_
  cases r with
  | none =>
    refine .pure fun ⟨y, hy, _⟩ => ?_
    cases hy
  | some r =>
    refine (hload r location l').weaken fun a x ⟨y, hy, hbecome⟩ ⟨r', hr', hdecode⟩ => ?_
    cases hr'
    exact ⟨y, hy, r, hdecode, hbecome⟩

theorem leaves_eachEntry (s : Section) (become : Arena → String → α → β → Prop)
    {decode : Decoder α} {load : α → String → Loader (Option β)} {keep : String → β → Loader Unit}
    {j : Option Json} (hj : ∀ e ∈ Json.entriesOf j, declared s e.1 e.2)
    (hload : ∀ r place (l' : Loading),
      l'.Leaves declared (load r place) fun a x => ∃ y, x = some y ∧ become a place r y)
    (hkeep : ∀ name y (l' : Loading), l'.Before (keep name y l').2)
    (hstored : ∀ name y (l' : Loading), Stored declared s decode (become l'.arena) (name, y) →
      l'.Faithful declared → (keep name y l').2.Faithful declared) :
    l.Leaves declared (eachEntry j s.root (readThen decode load) keep) fun _ _ => True := by
  unfold eachEntry
  rw [objectAt_eq, bind_assoc]
  refine (leaves_check _ _).bind fun _ l₁ _ => ?_
  rw [pure_bind]
  refine (Loading.Leaves.forM fun (name, j) hmem l₂ => ?_).weaken fun _ _ _ _ => trivial
  refine (leaves_readThen hload j _).bind_good (fun x l₃ => ?_) fun x l₃ hx => ?_
  · cases x with
    | none => exact .refl l₃
    | some y => exact hkeep name y l₃
  · obtain ⟨y, rfl, r, hr, hbecome⟩ := hx
    have hy : Stored declared s decode (become l₃.arena) (name, y) := ⟨j, r, hj _ hmem, hr, hbecome⟩
    exact ⟨hkeep name y l₃, fun _ hf => ⟨hstored name y l₃ hy hf, trivial⟩⟩

theorem forall_stored_insert {P : String × β → Prop} {m : OrderedMap String β} {name : String}
    {y : β} (hy : P (name, y)) (hm : ∀ e ∈ m, P e) : ∀ e ∈ m.insert name y, P e := by
  intro e he
  rcases OrderedMap.mem_insert he with he | rfl
  · exact hm e he
  · exact hy

theorem leaves_sharedParts (components : OrderedMap String Json)
    (hdeclared : ∀ s, ∀ e ∈ Json.entriesOf (components.get? s.key), declared s e.1 e.2) :
    l.Leaves declared (sharedParts components) fun _ _ => True := by
  unfold sharedParts
  refine (leaves_eachEntry .headers (HeaderUse declared) (hdeclared _)
    (fun r place l' => leaves_header r place)
    (fun name h l' => ⟨List.prefix_refl _, .refl _⟩)
    fun name h l' hh hf => { hf with headers := forall_stored_insert hh hf.headers }).bind
      fun _ l₁ _ => ?_
  refine (leaves_eachEntry .parameters (ParameterUse declared) (hdeclared _)
    (fun r place l' => leaves_parameter r place)
    (fun name p l' => ⟨List.prefix_refl _, .refl _⟩)
    fun name p l' hp hf => { hf with parameters := forall_stored_insert hp hf.parameters }).bind
      fun _ l₂ _ => ?_
  refine (leaves_eachEntry .requestBodies (RequestBodyUse declared) (hdeclared _)
    (fun r place l' => leaves_requestBody r place)
    (fun name b l' => ⟨List.prefix_refl _, .refl _⟩)
    fun name b l' hb hf =>
      { hf with requestBodies := forall_stored_insert hb hf.requestBodies }).bind fun _ l₃ _ => ?_
  refine (leaves_eachEntry .responses (ResponseUse declared) (hdeclared _)
    (fun r place l' => leaves_response r place)
    (fun name r l' => ⟨List.prefix_refl _, .refl _⟩)
    fun name r l' hr hf =>
      { hf with responses := forall_stored_insert hr hf.responses }).weaken fun _ _ _ => ?_
  exact fun _ _ _ => trivial

theorem leaves_schemas (j : Option Json) :
    l.Leaves declared (schemas j) fun a ys => EntriesBecome
      (fun location j id => Json.Becomes a j location id) Section.schemas.root
        (Json.entriesOf j) ys := by
  unfold schemas
  simp only
  rw [objectAt_eq, bind_assoc]
  refine (leaves_check _ _).bind fun _ l₁ _ => ?_
  rw [pure_bind]
  exact (leaves_entries (fun a location j id => Json.Becomes a j location id)
    (fun hab h => hab.json h) _ (fun j place l' => leaves_schema j place) _).weaken
      fun _ _ h _ => h

theorem leaves_markComponents (schemas : OrderedMap String Nat) :
    l.Leaves declared (markComponents schemas) fun _ _ => True := by
  have hkeeps : ∀ (entries : OrderedMap String Nat) (a : Arena), a.Keeps
      (entries.foldl (fun a e => a.setComponent e.2 (some e.1)) a) := by
    intro entries
    induction entries with
    | nil => exact .refl
    | cons e entries ih => exact fun a => (a.keeps_setComponent e.2 (some e.1)).trans (ih _)
  have hbefore : l.Before (markComponents schemas l).2 :=
    ⟨List.prefix_refl _, hkeeps schemas l.arena⟩
  exact ⟨hbefore, fun _ hf => ⟨hf.of_tables hbefore rfl rfl rfl rfl, trivial⟩⟩

theorem leaves_securitySchemes (j : Option Json) :
    l.Leaves declared (securitySchemes j) fun _ ys => List.Forall₂
      (fun e e' => e'.1 = e.1 ∧ SecuritySchemeObject.decode e.2 = .ok e'.2)
      (Json.entriesOf j) ys := by
  unfold securitySchemes
  simp only
  rw [objectAt_eq, bind_assoc]
  refine (leaves_check _ _).bind fun _ l₁ _ => ?_
  rw [pure_bind]
  exact (leaves_entries (fun _ _ j y => SecuritySchemeObject.decode j = .ok y) (fun _ h => h) _
    (fun j place l' => leaves_read _ j place) _).weaken fun _ _ h _ => h

theorem leaves_optionalPart (decoder : Decoder α) (j : Option Json) (location : String) :
    l.Leaves declared (optionalPart decoder j location) fun _ _ => True := by
  unfold optionalPart
  cases j with
  | none => exact .pure trivial
  | some j => exact (leaves_read _ _ _).weaken fun _ _ _ => trivial

theorem leaves_version (j : Option Json) :
    l.Leaves declared (version j) fun _ _ => True := by
  unfold version
  split
  · exact leaves_complaint _ _
  · split
    · exact .pure trivial
    · exact leaves_complaint _ _

theorem leaves_info (j : Option Json) : l.Leaves declared (info j) fun _ _ => True := by
  unfold info
  split
  · exact (leaves_read _ _ _).bind fun _ l' _ => .pure fun _ => trivial
  · exact leaves_complaint _ _

theorem leaves_pathItems {es : OrderedMap String Json} (hes : ∀ e ∈ es, e.2.Distinct) :
    l.Leaves declared (es.filterMapM fun (path, j) => pathItem path j)
      fun a items => List.Forall₂ (PathBecomes declared a) es items :=
  Loading.Leaves.filterMapM _ (fun hab => PathBecomes.mono hab)
    fun e he _ => leaves_pathItem e.1 e.2 (hes e he)

theorem leaves_document {root : OrderedMap String Json} (hroot : (Json.object root).Distinct) :
    l.Leaves (declarationsOf root) (document root) fun a d => d.arena = a ∧ d.Complete root := by
  have hpaths : ∀ e ∈ rootEntries root "paths", e.2.Distinct :=
    (Json.Distinct.entriesOf fun v hv => hroot.get? hv).2
  unfold document
  refine (leaves_version _).bind fun _ l₁ _ => ?_
  refine (leaves_info _).bind fun _ l₂ _ => ?_
  refine (leaves_optionalPart _ _ _).bind fun _ l₃ _ => ?_
  refine (leaves_optionalPart _ _ _).bind fun _ l₄ _ => ?_
  rw [objectAt_eq, bind_assoc]
  refine (leaves_check _ _).bind fun _ l₅ _ => ?_
  rw [pure_bind]
  refine (leaves_schemas _).bind fun schemas l₆ _ => ?_
  refine (leaves_markComponents _).bind fun _ l₇ hl₇ => ?_
  refine (leaves_securitySchemes _).bind fun schemes l₈ hl₈ => ?_
  refine (leaves_sharedParts _ fun _ _ he => he).bind fun _ l₉ hl₉ => ?_
  rw [objectAt_eq, bind_assoc]
  refine (leaves_check _ _).bind fun _ l₁₀ hl₁₀ => ?_
  rw [pure_bind]
  refine (leaves_pathItems fun e he => hpaths e (List.mem_filter.1 he).1).bind
    fun paths l₁₁ hl₁₁ => ?_
  refine ⟨.refl _, fun _ hf => ⟨hf, fun hitems _ _ hschemes _ hschemas _ _ _ _ _ => ⟨rfl, ?_⟩⟩⟩
  have hkeeps := (hl₇.trans (hl₈.trans (hl₉.trans (hl₁₀.trans hl₁₁)))).arena
  exact ⟨hschemas.mono fun _ _ _ h => hkeeps.json h, hschemes, hitems⟩

end Loader

theorem Loading.faithful_empty (declared : Declarations) : ({} : Loading).Faithful declared := by
  constructor <;> intro e he <;> cases he

namespace Document

theorem complete_ofRoot {root : OrderedMap String Json} (hroot : (Json.object root).Distinct)
    (hquiet : (ofRoot root).2 = []) : (ofRoot root).1.Complete root :=
  ((Loader.leaves_document hroot).quiet hquiet (Loading.faithful_empty _)).2.2

theorem load_complete {text : String} {o : Options} {d : Document} {complaints : List String}
    (h : load text o = .ok (d, complaints)) :
    ∃ root, root? text = .ok root ∧ (o.allowParseErrors = false → complaints = []) ∧
      (complaints = [] → d.Complete root) := by
  unfold load at h
  cases hroot : root? text with
  | error e =>
    rw [hroot] at h
    cases h
  | ok root =>
    rw [hroot] at h
    simp only [bind, Except.bind] at h
    split at h
    · next hpass =>
      obtain ⟨rfl, rfl⟩ := Prod.mk.inj (Except.ok.inj h)
      refine ⟨root, rfl, fun hstrict => ?_, complete_ofRoot (root?_distinct hroot)⟩
      rw [hstrict, Bool.or_false, List.isEmpty_iff] at hpass
      exact hpass
    · cases h

def catalogue : String :=
  "\x7bopenapi: '3.1', info: \x7b\x7d, paths: \x7bx-n: 1, /p: \x7bput: \x7b\x7d, get: \x7b" ++
    "parameters: [\x7b$ref: '#/components/parameters/P'\x7d]\x7d\x7d\x7d, components: \x7b" ++
    "parameters: \x7bP: \x7bname: p, in: query, schema: \x7b\x7d\x7d\x7d, " ++
    "schemas: \x7bA: \x7b\x7d\x7d\x7d\x7d"

theorem load_complete_catalogue : ∃ d root, load catalogue {} = .ok (d, []) ∧
    root? catalogue = .ok root ∧ d.Complete root ∧ d.schemas.keys = ["A"] ∧
      d.paths.map (fun item => (item.path, item.operations.map (·.method))) =
        [("/p", [.get, .put])] ∧ d.arena.nodes.size = 2 := by
  have hcheck : ((load catalogue {}).toOption.any fun x => decide (x.2 = [] ∧
      x.1.schemas.keys = ["A"] ∧
      x.1.paths.map (fun item => (item.path, item.operations.map (·.method))) =
        [("/p", [.get, .put])] ∧ x.1.arena.nodes.size = 2)) = true := by
    decide +kernel
  obtain ⟨⟨d, complaints⟩, hload, hrest⟩ := ok_of_any hcheck
  obtain ⟨rfl, hkeys, hpaths, hsize⟩ := of_decide_eq_true hrest
  obtain ⟨root, hroot, _, hcomplete⟩ := load_complete hload
  exact ⟨d, root, hload, hroot, hcomplete rfl, hkeys, hpaths, hsize⟩

end Document

end ApiModel
