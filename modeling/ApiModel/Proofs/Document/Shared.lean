import ApiModel.Proofs.Document.Sections

namespace ApiModel

inductive PartKind where
  | header
  | parameter
  | requestBody
  | response
  deriving DecidableEq

namespace PartKind

def all : List PartKind := [.header, .parameter, .requestBody, .response]

def Source : PartKind → Type
  | .header => HeaderObject
  | .parameter => ParameterObject
  | .requestBody => RequestBodyObject
  | .response => ResponseObject

def Part : PartKind → Type
  | .header => Header
  | .parameter => Parameter
  | .requestBody => RequestBody
  | .response => Response

def shelf : (k : PartKind) → Shelf k.Source k.Part
  | .header => {
      place := .headers
      decode := OrReference.decode HeaderObject.decode
      load := Loader.header
      keep := fun name h => modify fun l => { l with headers := l.headers.insert name h }
      parts := Loading.headers
      fits := fun _ => true }
  | .parameter => {
      place := .parameters
      decode := OrReference.decode ParameterObject.decode
      load := Loader.parameter
      keep := fun name p => modify fun l => { l with parameters := l.parameters.insert name p }
      parts := Loading.parameters
      fits := fun p : ParameterObject => (ParameterLocation.ofString? p.location).isSome }
  | .requestBody => {
      place := .requestBodies
      decode := OrReference.decode RequestBodyObject.decode
      load := Loader.requestBody
      keep := fun name b => modify fun l =>
        { l with requestBodies := l.requestBodies.insert name b }
      parts := Loading.requestBodies
      fits := fun _ => true }
  | .response => {
      place := .responses
      decode := OrReference.decode ResponseObject.decode
      load := Loader.response
      keep := fun name r => modify fun l => { l with responses := l.responses.insert name r }
      parts := Loading.responses
      fits := fun _ => true }

abbrev place (k : PartKind) : Section := k.shelf.place

def key (k : PartKind) : String := k.place.key

def load (k : PartKind) (j : Option Json) : Loader Unit :=
  Loader.eachEntry j k.place.root (Loader.readThen k.shelf.decode k.shelf.load) k.shelf.keep

theorem mem_all (k : PartKind) : k ∈ all := by cases k <;> decide

theorem nodup_all : all.Nodup := by decide

theorem place_ne {k k' : PartKind} (h : k ≠ k') : k.place ≠ k'.place := by
  revert h
  cases k <;> cases k' <;> decide

theorem isSome_parameter (p : ParameterObject) (location : String) (l : Loading) :
    (Loader.parameter (.inPlace p) location l).1.isSome =
      (ParameterLocation.ofString? p.location).isSome := by
  unfold Loader.parameter
  cases hplace : ParameterLocation.ofString? p.location <;> simp only [hplace] <;> rfl

theorem lawful (k : PartKind) : k.shelf.Lawful where
  keep_complaints := by cases k <;> exact fun _ _ _ => rfl
  keep_parts := by cases k <;> exact fun _ _ _ => rfl
  keep_others name part l s hs := by
    cases k <;> cases s <;> first | exact (hs rfl).elim | trivial
  knows_place := by cases k <;> exact fun _ _ => rfl
  parts_eq := by cases k <;> exact fun _ _ h => h
  load_reference := by cases k <;> exact fun _ _ => rfl
  load_inPlace := by
    cases k with
    | parameter => exact isSome_parameter
    | _ => exact fun _ _ _ => rfl
  echo := by
    cases k with
    | header => exact fun _ _ location _ hr => Loader.echo_header hr location
    | parameter => exact fun _ _ location _ hr => Loader.echo_parameter hr location
    | requestBody => exact fun _ _ location _ hr => Loader.echo_requestBody hr location
    | response =>
      exact fun _ _ location hothers hr =>
        Loader.echo_response (hothers .headers (by decide)) hr location

theorem load_eq (k : PartKind) (j : Option Json) (l : Loading) : (k.load j l).2 =
    k.shelf.run (Json.entriesOf j) (Loader.objectAt j k.place.root l).2 := by
  have hentries : (Loader.objectAt j k.place.root l).1 = Json.entriesOf j := by
    rw [Loader.objectAt_eq]
    cases j.all Json.isObject <;> rfl
  rw [← Shelf.forM_store, ← hentries]
  rfl

theorem sameParts_objectAt (j : Option Json) (location : String) (l : Loading) :
    (Loader.objectAt j location l).2.SameParts l := by
  have hecho : Loader.Echo (fun _ _ => True) _ (Loader.objectAt j location) _ :=
    Loader.echo_objectAt rfl location
  exact (hecho l l fun _ _ _ => rfl).2.1

theorem load_others {k k' : PartKind} (h : k ≠ k') (j : Option Json) (l : Loading) :
    Loading.SameIn k.place (k'.load j l).2 l := by
  rw [load_eq]
  exact (Shelf.run_others k'.lawful (place_ne h) _ _).trans (sameParts_objectAt _ _ _ _)

def loads (components : OrderedMap String Json) (ks : List PartKind) (l : Loading) : Loading :=
  ks.foldl (fun l k => (k.load (components.get? k.key) l).2) l

theorem loads_others {components : OrderedMap String Json} {k : PartKind} {ks : List PartKind}
    (hk : k ∉ ks) (l : Loading) : Loading.SameIn k.place (loads components ks l) l := by
  induction ks generalizing l with
  | nil => exact Loading.SameParts.refl l _
  | cons k' ks ih =>
    rw [List.mem_cons, not_or] at hk
    exact (ih hk.2 _).trans (load_others hk.1 _ l)

end PartKind

theorem Loader.sharedParts_eq (components : OrderedMap String Json) (l : Loading) :
    (sharedParts components l).2 = PartKind.loads components PartKind.all l := rfl

def Loading.Bare (l : Loading) : Prop := ∀ s name, l.knows s name = false

structure PartKind.Resolves (k : PartKind) (es : List (String × Json)) (l : Loading) : Prop where
  known : ∀ name, ((k.shelf.parts l).get? name).isSome = true ↔ k.shelf.Backed es name
  inPlace : ∀ name j part, (name, j) ∈ es → k.shelf.decode j = .ok (.inPlace part) →
    ∃ l₁, (k.shelf.parts l).get? name =
      (k.shelf.load (.inPlace part) (k.place.location name) l₁).1
  reference : ∀ name j target other, (name, j) ∈ es →
    k.shelf.decode j = .ok (.reference target) → componentName? k.place target = some other →
      k.shelf.Backed es name → (k.shelf.parts l).get? name = (k.shelf.parts l).get? other
  use : ∀ target location l', l'.SameParts l →
    (k.shelf.load (.reference target) location l').1 =
      (componentName? k.place target).bind (k.shelf.parts l).get? ∧
    (k.shelf.load (.reference target) location l').2.complaints = l'.complaints ++
      if ((componentName? k.place target).bind (k.shelf.parts l).get?).isSome then []
      else [location ++ ": cannot resolve '" ++ target ++ "'"]

namespace PartKind

variable {k : PartKind} {components : OrderedMap String Json} {l : Loading}

theorem exists_turn (k : PartKind) (components : OrderedMap String Json) (l : Loading) :
    ∃ l₁, Loading.SameIn k.place l₁ l ∧ Loading.SameIn k.place (Loader.sharedParts components l).2
      (k.load (components.get? k.key) l₁).2 := by
  obtain ⟨before, after, hall⟩ := List.append_of_mem k.mem_all
  have hnodup := nodup_all
  rw [hall, List.nodup_append', List.nodup_cons] at hnodup
  have hbefore : k ∉ before := fun hk => hnodup.2.2 hk List.mem_cons_self
  refine ⟨loads components before l, loads_others hbefore l, ?_⟩
  rw [Loader.sharedParts_eq, hall, loads, List.foldl_append, List.foldl_cons]
  exact loads_others hnodup.2.1.1 _

theorem resolves_sharedParts (hl : l.Bare)
    (hnodup : ((Json.entriesOf (components.get? k.key)).map (·.1)).Nodup) :
    k.Resolves (Json.entriesOf (components.get? k.key)) (Loader.sharedParts components l).2 := by
  obtain ⟨l₁, hbefore, hafter⟩ := k.exists_turn components l
  rw [load_eq] at hafter
  have hparts := k.lawful.parts_eq _ _ hafter
  have hfresh : ∀ n, (Loader.objectAt (components.get? k.key) k.place.root l₁).2.knows
      k.shelf.place n = false := fun n => by
    rw [(sameParts_objectAt _ _ l₁).knows]
    exact (congrFun hbefore.knows n).trans (hl _ n)
  refine ⟨fun name => ?_, fun name j part he hj => ?_,
    fun name j target other he hj hother hback => ?_, fun target location l' hsame => ?_⟩
  · rw [← k.lawful.knows_place]
    exact (congrArg (· = true) (congrFun hafter.knows name)).to_iff.trans
      (Shelf.knows_run_iff k.lawful hfresh name)
  · rw [hparts]
    exact Shelf.get?_run_inPlace k.lawful hfresh hnodup he hj
  · rw [hparts]
    exact Shelf.get?_run_reference k.lawful hfresh hnodup he hj hother hback
  · rw [← k.lawful.parts_eq _ _ (hsame _), k.lawful.load_reference]
    exact Loader.shared_spec _ _ _ _ _

def Reports (k : PartKind) (l : Loading) : Prop :=
  ∀ front name j target, k.shelf.decode j = .ok (.reference target) →
    (k.shelf.Settles front j →
      (k.load (some (.object (front ++ [(name, j)]))) l).2.complaints =
        (k.load (some (.object front)) l).2.complaints) ∧
    (¬ k.shelf.Settles front j →
      (k.load (some (.object (front ++ [(name, j)]))) l).2.complaints =
        (k.load (some (.object front)) l).2.complaints ++
          [k.place.location name ++ ": cannot resolve '" ++ target ++ "'"])

theorem reports_of_bare (k : PartKind) (hl : l.Bare) : k.Reports l := by
  intro front name j target hj
  have hpush : (k.load (some (.object (front ++ [(name, j)]))) l).2.complaints =
      (k.shelf.run front l).complaints ++ (k.shelf.outcome (name, j) (k.shelf.run front l)).1 := by
    rw [load_eq]
    exact (congrArg _ (Shelf.run_push front (name, j) l)).trans
      (Shelf.complaints_store k.lawful _ _).1
  have hfront : (k.load (some (.object front)) l).2.complaints =
      (k.shelf.run front l).complaints := by
    rw [load_eq]
    rfl
  have hsettles : (k.shelf.outcome (name, j) (k.shelf.run front l)).2 = true ↔
      k.shelf.Settles front j :=
    Shelf.outcome_settles k.lawful (Shelf.knows_run_iff k.lawful (hl k.place))
  rw [hpush, hfront, Shelf.outcome_reference k.lawful hj]
  refine ⟨fun h => ?_, fun h => ?_⟩
  · rw [if_pos (hsettles.2 h), List.append_nil]
  · rw [if_neg (mt hsettles.1 h)]
    rfl

end PartKind

end ApiModel
