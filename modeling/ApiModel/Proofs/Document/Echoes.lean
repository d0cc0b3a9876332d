import ApiModel.Proofs.Document.Complete

namespace ApiModel

namespace Loading

def knows (l : Loading) : Section → String → Bool
  | .parameters, name => (l.parameters.get? name).isSome
  | .requestBodies, name => (l.requestBodies.get? name).isSome
  | .responses, name => (l.responses.get? name).isSome
  | .headers, name => (l.headers.get? name).isSome
  | .schemas, _ => false

def AgreeOn (asked : Section → String → Prop) (l l' : Loading) : Prop :=
  ∀ s name, asked s name → l.knows s name = l'.knows s name

def SameIn (s : Section) (l l' : Loading) : Prop :=
  match s with
  | .parameters => l.parameters = l'.parameters
  | .requestBodies => l.requestBodies = l'.requestBodies
  | .responses => l.responses = l'.responses
  | .headers => l.headers = l'.headers
  | .schemas => True

def SameParts (l l' : Loading) : Prop := ∀ s, SameIn s l l'

theorem SameIn.trans {s : Section} {l l' l'' : Loading} (h : SameIn s l l')
    (h' : SameIn s l' l'') : SameIn s l l'' := by
  cases s with
  | schemas => trivial
  | _ => exact Eq.trans h h'

theorem SameIn.symm {s : Section} {l l' : Loading} (h : SameIn s l l') : SameIn s l' l := by
  cases s with
  | schemas => trivial
  | _ => exact Eq.symm h

theorem SameIn.knows {s : Section} {l l' : Loading} (h : SameIn s l l') :
    l.knows s = l'.knows s := by
  funext name
  cases s with
  | schemas => rfl
  | parameters => exact congrArg (fun m => (OrderedMap.get? m name).isSome) h
  | requestBodies => exact congrArg (fun m => (OrderedMap.get? m name).isSome) h
  | responses => exact congrArg (fun m => (OrderedMap.get? m name).isSome) h
  | headers => exact congrArg (fun m => (OrderedMap.get? m name).isSome) h

theorem SameParts.refl (l : Loading) : l.SameParts l := by
  intro s
  cases s with
  | schemas => trivial
  | _ => rfl

theorem SameParts.trans {l l' l'' : Loading} (h : l.SameParts l') (h' : l'.SameParts l'') :
    l.SameParts l'' :=
  fun s => (h s).trans (h' s)

theorem SameParts.symm {l l' : Loading} (h : l.SameParts l') : l'.SameParts l := fun s => (h s).symm

theorem SameParts.knows {l l' : Loading} (h : l.SameParts l') : l.knows = l'.knows :=
  funext fun s => (h s).knows

end Loading

namespace Loader

variable {α β γ δ : Type} {asked : Section → String → Prop}

/-- From states that agree on what is asked, two loaders make the same complaints. They leave the
shared parts alone, and their results are related. -/
def Echo (asked : Section → String → Prop) (R : α → β → Prop) (m : Loader α) (m' : Loader β) :
    Prop :=
  ∀ l l' : Loading, l.AgreeOn asked l' →
    (∃ said, (m l).2.complaints = l.complaints ++ said ∧
      (m' l').2.complaints = l'.complaints ++ said) ∧
    (m l).2.SameParts l ∧ (m' l').2.SameParts l' ∧ R (m l).1 (m' l').1

def Both (x : Option α) (y : Option β) : Prop := x.isSome = y.isSome

namespace Echo

variable {R : α → β → Prop} {S : γ → δ → Prop} {m : Loader α} {m' : Loader β}

theorem pure {a : α} {b : β} (h : R a b) :
    Echo asked R (Pure.pure a : Loader α) (Pure.pure b : Loader β) :=
  fun _ _ _ => ⟨⟨[], (List.append_nil _).symm, (List.append_nil _).symm⟩, .refl _, .refl _, h⟩

theorem bind {f : α → Loader γ} {f' : β → Loader δ} (h : Echo asked R m m')
    (hf : ∀ a b, R a b → Echo asked S (f a) (f' b)) : Echo asked S (m >>= f) (m' >>= f') := by
  intro l l' hl
  obtain ⟨⟨said, hsaid, hsaid'⟩, hsame, hsame', hR⟩ := h l l' hl
  have hnext : (m l).2.AgreeOn asked (m' l').2 := by
    intro s name ha
    rw [hsame.knows, hsame'.knows]
    exact hl s name ha
  obtain ⟨⟨more, hmore, hmore'⟩, hkept, hkept', hS⟩ := hf _ _ hR _ _ hnext
  refine ⟨⟨said ++ more, ?_, ?_⟩, hkept.trans hsame, hkept'.trans hsame', hS⟩
  · rw [← List.append_assoc, ← hsaid]
    exact hmore
  · rw [← List.append_assoc, ← hsaid']
    exact hmore'

theorem weaken {R' : α → β → Prop} (h : Echo asked R m m') (hR : ∀ a b, R a b → R' a b) :
    Echo asked R' m m' := by
  intro l l' hl
  obtain ⟨hsaid, hsame, hsame', hresult⟩ := h l l' hl
  exact ⟨hsaid, hsame, hsame', hR _ _ hresult⟩

theorem mapM {f : α → Loader γ} {xs : List α}
    (h : ∀ x ∈ xs, Echo asked (fun _ _ => True) (f x) (f x)) :
    Echo asked (fun _ _ => True) (xs.mapM f) (xs.mapM f) := by
  induction xs with
  | nil => exact pure trivial
  | cons x xs ih =>
    rw [List.mapM_cons]
    refine (h x List.mem_cons_self).bind fun _ _ _ => ?_
    exact (ih fun x hx => h x (List.mem_cons_of_mem _ hx)).bind fun _ _ _ => pure trivial

theorem filterMapM {f : α → Loader (Option γ)} {xs : List α}
    (h : ∀ x ∈ xs, Echo asked Both (f x) (f x)) :
    Echo asked (fun _ _ => True) (xs.filterMapM f) (xs.filterMapM f) := by
  induction xs with
  | nil => exact pure trivial
  | cons x xs ih =>
    rw [List.filterMapM_cons]
    refine (h x List.mem_cons_self).bind fun a b hab => ?_
    have hrest := ih fun x hx => h x (List.mem_cons_of_mem _ hx)
    cases a with
    | none =>
      cases b with
      | none => exact hrest
      | some b => cases hab
    | some a =>
      cases b with
      | none => cases hab
      | some b => exact hrest.bind fun _ _ _ => pure trivial

end Echo

theorem echo_complain (message : String) :
    Echo asked (fun _ _ => True) (complain message) (complain message) :=
  fun _ _ _ => ⟨⟨[message], rfl, rfl⟩, .refl _, .refl _, trivial⟩

theorem echo_complaint (message : String) {a : α} {b : β} {R : α → β → Prop} (h : R a b) :
    Echo asked R (do complain message; return a) (do complain message; return b) :=
  (echo_complain message).bind fun _ _ _ => .pure h

theorem echo_read (decoder : Decoder α) (j : Json) (location : String) :
    Echo asked Eq (read decoder j location) (read decoder j location) := by
  unfold read
  cases decoder j with
  | ok a => exact .pure rfl
  | error e => exact echo_complaint _ rfl

theorem echo_objectAt {j j' : Option Json} (h : j.all Json.isObject = j'.all Json.isObject)
    (location : String) : Echo asked (fun es es' => es = Json.entriesOf j ∧ es' = Json.entriesOf j')
      (objectAt j location) (objectAt j' location) := by
  rw [objectAt_eq, objectAt_eq, h]
  split
  · exact .pure ⟨rfl, rfl⟩
  · exact (echo_complain _).bind fun _ _ _ => .pure ⟨rfl, rfl⟩

theorem echo_schema (j : Json) (location : String) :
    Echo asked Both (schema j location) (schema j location) := by
  unfold schema
  refine (echo_read _ _ _).bind fun s _ hs => ?_
  subst hs
  cases s with
  | none => exact .pure rfl
  | some s => exact fun _ _ _ => ⟨⟨s.complaints location, rfl, rfl⟩, .refl _, .refl _, rfl⟩

theorem echo_optionalSchema (j : Option Json) (location : String) :
    Echo asked Both (optionalSchema j location) (optionalSchema j location) := by
  unfold optionalSchema
  cases j with
  | none => exact .pure rfl
  | some j => exact echo_schema j location

theorem echo_content (c : ContentObject) (location : String) :
    Echo asked (fun _ _ => True) (content c location) (content c location) :=
  Echo.mapM fun _ _ => (echo_optionalSchema _ _).bind fun _ _ _ => .pure trivial

theorem echo_valueSchema (own : Option Json) (entries : Option ContentObject) (location : String) :
    Echo asked Both (valueSchema own entries location) (valueSchema own entries location) := by
  unfold valueSchema
  split
  · exact echo_schema _ _
  · exact echo_optionalSchema _ _
  · exact .pure rfl

theorem shared_spec (s : Section) (parts : Loading → OrderedMap String β)
    (target location : String) (l : Loading) :
    (shared s parts target location l).1 = (componentName? s target).bind (parts l).get? ∧
    (shared s parts target location l).2.complaints = l.complaints ++
      if ((componentName? s target).bind (parts l).get?).isSome then []
      else [location ++ ": cannot resolve '" ++ target ++ "'"] := by
  cases hfound : (componentName? s target).bind (parts l).get? with
  | some part =>
    rw [shared_of_some hfound]
    exact ⟨rfl, (List.append_nil _).symm⟩
  | none =>
    rw [shared_of_none hfound]
    exact ⟨rfl, rfl⟩

def Asks (asked : Section → String → Prop) (s : Section) (r : OrReference α) : Prop :=
  ∀ target name, r = .reference target → componentName? s target = some name → asked s name

theorem echo_shared (s : Section) {parts : Loading → OrderedMap String β}
    (hparts : ∀ (l : Loading) name, l.knows s name = ((parts l).get? name).isSome)
    {target : String} (hasked : ∀ name, componentName? s target = some name → asked s name)
    (location : String) :
    Echo asked Both (shared s parts target location) (shared s parts target location) := by
  intro l l' hl
  have hsame : ((componentName? s target).bind (parts l).get?).isSome =
      ((componentName? s target).bind (parts l').get?).isSome := by
    cases hname : componentName? s target with
    | none => rfl
    | some name =>
      have hknows := hl s name (hasked name hname)
      rw [hparts, hparts] at hknows
      exact hknows
  cases hfound : (componentName? s target).bind (parts l).get? with
  | some part =>
    rw [hfound] at hsame
    obtain ⟨part', hfound'⟩ := Option.isSome_iff_exists.1 hsame.symm
    have hboth : Both (some part) (some part') := rfl
    rw [shared_of_some hfound, shared_of_some hfound']
    exact Echo.pure hboth l l' hl
  | none =>
    rw [hfound] at hsame
    have hfound' := Option.not_isSome_iff_eq_none.1 (Bool.eq_false_iff.1 hsame.symm)
    have hboth : Both (none : Option β) (none : Option β) := rfl
    rw [shared_of_none hfound, shared_of_none hfound']
    exact echo_complaint _ hboth l l' hl

theorem echo_parameter {p : OrReference ParameterObject} (h : Asks asked .parameters p)
    (location : String) : Echo asked Both (parameter p location) (parameter p location) := by
  unfold parameter
  cases p with
  | reference target =>
    exact echo_shared .parameters (fun _ _ => rfl) (fun name => h target name rfl) location
  | inPlace p =>
    simp only
    split
    · exact echo_complaint _ rfl
    · exact (echo_valueSchema _ _ _).bind fun _ _ _ => .pure rfl

theorem echo_header {h : OrReference HeaderObject} (ha : Asks asked .headers h)
    (location : String) : Echo asked Both (header h location) (header h location) := by
  unfold header
  cases h with
  | reference target =>
    exact echo_shared .headers (fun _ _ => rfl) (fun name => ha target name rfl) location
  | inPlace h => exact (echo_valueSchema _ _ _).bind fun _ _ _ => .pure rfl

theorem echo_requestBody {b : OrReference RequestBodyObject} (h : Asks asked .requestBodies b)
    (location : String) : Echo asked Both (requestBody b location) (requestBody b location) := by
  unfold requestBody
  cases b with
  | reference target =>
    exact echo_shared .requestBodies (fun _ _ => rfl) (fun name => h target name rfl) location
  | inPlace b => exact (echo_content _ _).bind fun _ _ _ => .pure rfl

theorem echo_entries {m : OrderedMap String α} {load : α → String → Loader (Option β)}
    (h : ∀ e ∈ m, ∀ location, Echo asked Both (load e.2 location) (load e.2 location))
    (location : String) :
    Echo asked (fun _ _ => True) (entries m load location) (entries m load location) := by
  refine Echo.filterMapM fun e he => ?_
  refine (h e he _).bind fun a b hab => .pure ?_
  rw [Both, Option.isSome_map, Option.isSome_map]
  exact hab

theorem echo_schemas (j : Option Json) :
    Echo asked (fun _ _ => True) (schemas j) (schemas j) := by
  unfold schemas
  refine (echo_objectAt rfl _).bind fun es _ hes => ?_
  obtain ⟨rfl, rfl⟩ := hes
  exact echo_entries (fun _ _ _ => echo_schema _ _) _

theorem echo_securitySchemes (j : Option Json) :
    Echo asked (fun _ _ => True) (securitySchemes j) (securitySchemes j) := by
  unfold securitySchemes
  refine (echo_objectAt rfl _).bind fun es _ hes => ?_
  obtain ⟨rfl, rfl⟩ := hes
  exact echo_entries (fun _ _ _ => (echo_read _ _ _).weaken fun _ _ heq => congrArg _ heq) _

theorem echo_markComponents (m m' : OrderedMap String Nat) :
    Echo asked (fun _ _ => True) (markComponents m) (markComponents m') :=
  fun _ _ _ =>
    ⟨⟨[], (List.append_nil _).symm, (List.append_nil _).symm⟩, .refl _, .refl _, trivial⟩

theorem echo_get : Echo asked (fun _ _ => True) (get : Loader Loading) get :=
  fun _ _ _ =>
    ⟨⟨[], (List.append_nil _).symm, (List.append_nil _).symm⟩, .refl _, .refl _, trivial⟩

theorem echo_version (j : Option Json) :
    Echo asked (fun _ _ => True) (version j) (version j) := by
  unfold version
  split
  · exact echo_complaint _ trivial
  · split
    · exact .pure trivial
    · exact echo_complaint _ trivial

theorem echo_info (j : Option Json) : Echo asked (fun _ _ => True) (info j) (info j) := by
  unfold info
  split
  · exact (echo_read _ _ _).bind fun _ _ _ => .pure trivial
  · exact echo_complaint _ trivial

theorem echo_optionalPart (decoder : Decoder α) (j : Option Json) (location : String) :
    Echo asked (fun _ _ => True) (optionalPart decoder j location)
      (optionalPart decoder j location) := by
  unfold optionalPart
  cases j with
  | none => exact .pure trivial
  | some j => exact (echo_read _ _ _).weaken fun _ _ _ => trivial

theorem echo_response (hheaders : ∀ name, asked .headers name) {r : OrReference ResponseObject}
    (h : Asks asked .responses r) (location : String) :
    Echo asked Both (response r location) (response r location) := by
  unfold response
  cases r with
  | reference target =>
    exact echo_shared .responses (fun _ _ => rfl) (fun name => h target name rfl) location
  | inPlace r =>
    refine (echo_content _ _).bind fun _ _ _ => ?_
    refine (echo_entries (fun e _ => ?_) _).bind fun _ _ _ => .pure rfl
    exact echo_header fun _ name _ _ => hheaders name

section

variable (hall : ∀ s name, asked s name)

include hall

theorem echo_parameters (ps : List (OrReference ParameterObject)) (location : String) :
    Echo asked (fun _ _ => True) (parameters ps location) (parameters ps location) :=
  Echo.filterMapM fun _ _ => echo_parameter (fun _ name _ _ => hall _ name) _

theorem echo_optionalBody (b : Option (OrReference RequestBodyObject)) (location : String) :
    Echo asked Both (optionalBody b location) (optionalBody b location) := by
  unfold optionalBody
  cases b with
  | none => exact .pure rfl
  | some b => exact echo_requestBody (fun _ name _ _ => hall _ name) _

theorem echo_operation (method : HttpMethod) (o : OperationObject) (location : String) :
    Echo asked (fun _ _ => True) (operation method o location) (operation method o location) := by
  unfold operation
  refine (echo_parameters hall _ _).bind fun _ _ _ => ?_
  refine (echo_optionalBody hall _ _).bind fun _ _ _ => ?_
  have hresponse : ∀ e ∈ o.responses.filter fun e => !isExtension e.1, ∀ place,
      Echo asked Both (response e.2 place) (response e.2 place) :=
    fun _ _ _ => echo_response (hall .headers) (fun _ name _ _ => hall _ name) _
  exact (echo_entries hresponse _).bind fun _ _ _ => .pure trivial

theorem echo_operationAt (method : HttpMethod) (j : Json) (location : String) :
    Echo asked Both (operationAt method j location) (operationAt method j location) := by
  unfold operationAt
  refine (echo_read _ _ _).bind fun o _ ho => ?_
  subst ho
  cases o with
  | none => exact .pure rfl
  | some o => exact (echo_operation hall method o location).bind fun _ _ _ => .pure rfl

theorem echo_operations (location : String) (methods : List HttpMethod)
    (raw : OrderedMap String Json) : Echo asked (fun x y => x.2 = y.2)
      (operations location methods raw) (operations location methods raw) := by
  induction methods generalizing raw with
  | nil => exact .pure rfl
  | cons method methods ih =>
    unfold operations
    split
    · exact ih _
    · refine (echo_operationAt hall method _ _).bind fun _ _ _ => ?_
      exact (ih _).bind fun _ _ hrest => .pure hrest

theorem echo_pathItem (path : String) (j : Json) :
    Echo asked Both (pathItem path j) (pathItem path j) := by
  unfold pathItem
  simp only
  split
  · split
    · exact echo_complaint _ rfl
    · refine (echo_operations hall _ _ _).bind fun x y hxy => ?_
      obtain ⟨_, raw⟩ := x
      obtain ⟨_, raw'⟩ := y
      obtain rfl : raw = raw' := hxy
      refine (echo_read _ _ _).bind fun o _ ho => ?_
      subst ho
      exact (echo_parameters hall _ _).bind fun _ _ _ => .pure rfl
  · exact echo_complaint _ rfl

end

end Loader

end ApiModel
