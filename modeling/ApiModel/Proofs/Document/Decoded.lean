import ApiModel.Proofs.Document.Distinct
import ApiModel.Proofs.Outcome

namespace ApiModel

def Decoder.Gives {α : Type} (decoder : Decoder α) (P : α → Prop) : Prop :=
  ∀ j a, j.Distinct → decoder j = .ok a → P a

def Field.Keeps {σ : Type} (P : σ → Prop) (field : Field σ) : Prop :=
  ∀ j s s', j.Distinct → P s → field.read j s = .ok s' → P s'

namespace Decoder.Gives

variable {α β σ : Type} {P : α → Prop} {Q : β → Prop} {decoder second : Decoder α}

theorem anything (decoder : Decoder α) : decoder.Gives fun _ => True := fun _ _ _ _ => trivial

theorem any : Decoder.any.Gives Json.Distinct := by
  rintro j _ hj ⟨⟩
  exact hj

theorem option (h : decoder.Gives P) : (Decoder.option decoder).Gives fun o => ∀ a ∈ o, P a := by
  intro j o hj ho
  unfold Decoder.option at ho
  split at ho
  · cases ho
    simp
  · obtain ⟨a, ha, rfl⟩ := ok_of_map ho
    rintro _ ⟨⟩
    exact h j a hj ha

theorem list (h : decoder.Gives P) : (Decoder.list decoder).Gives fun l => ∀ a ∈ l, P a := by
  intro j l hj hl
  cases hj with
  | @array items hitems =>
    have hmeets : Meets (items.mapM decoder) (fun as => ∀ a ∈ as, P a) fun _ => True := by
      refine Meets.mapM_all P fun item hitem => ?_
      cases hdecode : decoder item with
      | ok a => exact h item a (hitems item hitem) hdecode
      | error e => trivial
    exact hmeets.of_ok hl
  | _ => cases hl

theorem map (h : decoder.Gives P) :
    (Decoder.map decoder).Gives fun m => m.keys.Nodup ∧ ∀ e ∈ m, P e.2 := by
  intro j m hj hm
  cases hj with
  | @object entries hkeys hvalues =>
    have hmeets : Meets (entries.mapM fun e => do return (e.1, ← decoder e.2))
        (List.Forall₂ (fun e e' => e'.1 = e.1 ∧ P e'.2) entries) fun _ => True := by
      refine Meets.mapM fun e he => ?_
      cases hdecode : decoder e.2 with
      | ok a => exact ⟨rfl, h e.2 a (hvalues e he) hdecode⟩
      | error e => trivial
    have hall := hmeets.of_ok hm
    have hsame : m.keys = OrderedMap.keys entries := by
      clear hkeys hvalues hmeets hm
      induction hall with
      | nil => rfl
      | cons he _ ih => exact congrArg₂ List.cons he.1 ih
    refine ⟨hsame ▸ hkeys, fun e he => ?_⟩
    obtain ⟨_, _, hP⟩ := exists_of_mem_right hall he
    exact hP.2
  | _ => cases hm

theorem orElse {name : String} (h : decoder.Gives P) (h' : second.Gives P) :
    (Decoder.orElse name decoder second).Gives P := by
  intro j a hj ha
  unfold Decoder.orElse at ha
  split at ha
  · next hfirst =>
    cases ha
    exact h j a hj hfirst
  · split at ha
    · next hsecond =>
      cases ha
      exact h' j a hj hsecond
    · cases ha

theorem readEntries {P : σ → Prop} {fields : List (Field σ)}
    (hfields : ∀ field ∈ fields, field.Keeps P) {entries : List (String × Json)}
    (hentries : ∀ e ∈ entries, e.2.Distinct) {s s' : σ} (hs : P s)
    (h : Decoder.readEntries fields entries s = .ok s') : P s' := by
  induction entries generalizing s with
  | nil =>
    cases h
    exact hs
  | cons e rest ih =>
    obtain ⟨he, hrest⟩ := List.forall_mem_cons.1 hentries
    unfold Decoder.readEntries at h
    split at h
    · next field hfield =>
      obtain ⟨s₁, hread, h⟩ := ok_of_bind h
      have hkeeps := hfields field (List.mem_of_find?_eq_some hfield)
      exact ih hrest (hkeeps _ s s₁ he hs hread) h
    · exact ih hrest hs h

theorem readItems {P : σ → Prop} {name : String} {arity place : Nat} {fields : List (Field σ)}
    (hfields : ∀ field ∈ fields, field.Keeps P) {all items : List Json}
    (hitems : ∀ j ∈ items, j.Distinct) {s s' : σ} (hs : P s)
    (h : Decoder.readItems name arity all place fields items s = .ok s') : P s' := by
  induction fields generalizing place items s with
  | nil =>
    cases items with
    | nil =>
      cases h
      exact hs
    | cons j items => cases h
  | cons field fields ih =>
    obtain ⟨hfield, hfields⟩ := List.forall_mem_cons.1 hfields
    cases items with
    | nil =>
      rw [Decoder.readItems] at h
      split at h
      · exact ih hfields hitems hs h
      · cases h
    | cons j items =>
      obtain ⟨hj, hitems⟩ := List.forall_mem_cons.1 hitems
      rw [Decoder.readItems] at h
      obtain ⟨s₁, hread, h⟩ := ok_of_bind h
      exact ih hfields hitems (hfield j s s₁ hj hs hread) h

theorem record {P : σ → Prop} {name : String} {fields : List (Field σ)} {blank : σ}
    (hfields : fields.Forall (Field.Keeps P)) (hblank : P blank) :
    (Decoder.record name fields blank).Gives P := by
  intro j s hj hs
  rw [List.forall_iff_forall_mem] at hfields
  cases hj with
  | object _ hvalues =>
    exact readEntries hfields hvalues hblank (Decoder.readEntries_of_record hs)
  | array hitems => exact readItems hfields hitems hblank hs
  | _ => cases hs

end Decoder.Gives

namespace Field.Keeps

variable {α σ : Type} {P : σ → Prop} {Q : α → Prop} {key : String} {value : Decoder α}

theorem lenient {set : α → σ → σ} (hvalue : value.Gives Q)
    (hset : ∀ a s, Q a → P s → P (set a s)) : (Field.lenient key value set).Keeps P := by
  intro j s s' hj hs hread
  obtain ⟨a, ha, rfl⟩ := ok_of_map hread
  exact hset a s (hvalue j a hj ha) hs

theorem mandatory {set : α → σ → σ} (hvalue : value.Gives Q)
    (hset : ∀ a s, Q a → P s → P (set a s)) : (Field.mandatory key value set).Keeps P := by
  have h : (Field.lenient key value set).Keeps P := lenient hvalue hset
  exact h

theorem optional {set : Option α → σ → σ} (hvalue : value.Gives Q)
    (hset : ∀ o s, (∀ a ∈ o, Q a) → P s → P (set o s)) : (Field.optional key value set).Keeps P := by
  have h : (Field.lenient key value.option set).Keeps P := lenient hvalue.option hset
  exact h

end Field.Keeps

namespace OrReference

def Holds {α : Type} (P : α → Prop) (r : OrReference α) : Prop := ∀ part, r = .inPlace part → P part

theorem gives_decode {α : Type} {P : α → Prop} {part : Decoder α} (h : part.Gives P) :
    (decode part).Gives (Holds P) := by
  refine .orElse (fun j r hj hr => ?_) fun j r hj hr => ?_
  · obtain ⟨target, -, rfl⟩ := ok_of_map hr
    rintro _ ⟨⟩
  · obtain ⟨a, ha, rfl⟩ := ok_of_map hr
    rintro _ ⟨⟩
    exact h j a hj ha

end OrReference

def MediaTypeObject.Distinct (m : MediaTypeObject) : Prop := ∀ j ∈ m.schema, j.Distinct

theorem MediaTypeObject.gives_decode : decode.Gives Distinct :=
  .record (.optional .any fun _ _ h _ => h) (by simp [Distinct])

def ContentObject.Distinct (c : ContentObject) : Prop :=
  c.keys.Nodup ∧ ∀ e ∈ c, e.2.Distinct

theorem ContentObject.gives_decode : decode.Gives Distinct := .map MediaTypeObject.gives_decode

theorem ContentObject.distinct_nil : Distinct [] := by
  simp [Distinct, OrderedMap.keys]

structure ParameterObject.Distinct (p : ParameterObject) : Prop where
  schema : ∀ j ∈ p.schema, j.Distinct
  content : ∀ c ∈ p.content, c.Distinct

theorem ParameterObject.gives_decode : decode.Gives Distinct :=
  .record
    ⟨.mandatory (.anything _) fun _ _ _ h => { h with },
      .mandatory (.anything _) fun _ _ _ h => { h with },
      .optional (.anything _) fun _ _ _ h => { h with },
      .optional (.anything _) fun _ _ _ h => { h with },
      .optional .any fun _ _ hschema h => { h with schema := hschema },
      .optional ContentObject.gives_decode fun _ _ hcontent h => { h with content := hcontent }⟩
    ⟨by simp, by simp⟩

structure HeaderObject.Distinct (h : HeaderObject) : Prop where
  schema : ∀ j ∈ h.schema, j.Distinct
  content : ∀ c ∈ h.content, c.Distinct

theorem HeaderObject.gives_decode : decode.Gives Distinct :=
  .record
    ⟨.optional (.anything _) fun _ _ _ h => { h with },
      .optional (.anything _) fun _ _ _ h => { h with },
      .optional .any fun _ _ hschema h => { h with schema := hschema },
      .optional ContentObject.gives_decode fun _ _ hcontent h => { h with content := hcontent }⟩
    ⟨by simp, by simp⟩

def RequestBodyObject.Distinct (b : RequestBodyObject) : Prop := b.content.Distinct

theorem RequestBodyObject.gives_decode : decode.Gives Distinct :=
  .record
    ⟨.optional (.anything _) fun _ _ _ h => h, .optional (.anything _) fun _ _ _ h => h,
      .lenient ContentObject.gives_decode fun _ _ hcontent _ => hcontent⟩
    ContentObject.distinct_nil

structure ResponseObject.Distinct (r : ResponseObject) : Prop where
  content : r.content.Distinct
  names : r.headers.keys.Nodup
  headers : ∀ e ∈ r.headers, e.2.Holds HeaderObject.Distinct

theorem ResponseObject.gives_decode : decode.Gives Distinct :=
  .record
    ⟨.optional (.anything _) fun _ _ _ h => { h with },
      .lenient ContentObject.gives_decode fun _ _ hcontent h => { h with content := hcontent },
      .lenient (.map (OrReference.gives_decode HeaderObject.gives_decode))
        fun _ _ hheaders h => { h with names := hheaders.1, headers := hheaders.2 }⟩
    ⟨ContentObject.distinct_nil, by simp [OrderedMap.keys], by simp⟩

structure OperationObject.Distinct (o : OperationObject) : Prop where
  parameters : ∀ p ∈ o.parameters, p.Holds ParameterObject.Distinct
  requestBody : ∀ b ∈ o.requestBody, b.Holds RequestBodyObject.Distinct
  codes : o.responses.keys.Nodup
  responses : ∀ e ∈ o.responses, e.2.Holds ResponseObject.Distinct

theorem OperationObject.gives_decode : decode.Gives Distinct :=
  .record
    ⟨.lenient (.anything _) fun _ _ _ h => { h with },
      .optional (.anything _) fun _ _ _ h => { h with },
      .lenient (.list (OrReference.gives_decode ParameterObject.gives_decode))
        fun _ _ hparameters h => { h with parameters := hparameters },
      .optional (OrReference.gives_decode RequestBodyObject.gives_decode)
        fun _ _ hbody h => { h with requestBody := hbody },
      .lenient (.map (OrReference.gives_decode ResponseObject.gives_decode))
        fun _ _ hresponses h => { h with codes := hresponses.1, responses := hresponses.2 },
      .optional (.anything _) fun _ _ _ h => { h with },
      .optional (.anything _) fun _ _ _ h => { h with },
      .optional (.anything _) fun _ _ _ h => { h with }⟩
    ⟨by simp [empty], by simp [empty], by simp [empty, OrderedMap.keys], by simp [empty]⟩

def PathItemObject.Distinct (o : PathItemObject) : Prop :=
  ∀ p ∈ o.parameters, p.Holds ParameterObject.Distinct

theorem PathItemObject.distinct_empty : empty.Distinct := by
  simp [Distinct, empty]

theorem PathItemObject.gives_decode : decode.Gives Distinct :=
  .record
    ⟨.lenient (.list (OrReference.gives_decode ParameterObject.gives_decode))
        fun _ _ hparameters _ => hparameters,
      .optional (.anything _) fun _ _ _ h => h⟩
    distinct_empty

end ApiModel
