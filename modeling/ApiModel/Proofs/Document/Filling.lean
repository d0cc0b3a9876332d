import ApiModel.Proofs.Document.Decoded
import ApiModel.Proofs.Document.Sited
import ApiModel.Proofs.Schema.Decoded

namespace ApiModel

namespace Salvaged

variable {α β : Type} {R R' : α → Option β → Prop} {xs : List α} {ys : List β}

theorem imp (h : Salvaged R xs ys) (hR : ∀ x y, R x y → R' x y) : Salvaged R' xs ys := by
  induction h with
  | nil => exact .nil
  | kept hx _ ih => exact .kept (hR _ _ hx) ih
  | dropped hx _ ih => exact .dropped (hR _ _ hx) ih

end Salvaged

theorem OptionSalvaged.imp {α β : Type} {R R' : α → Option β → Prop} {x : Option α} {y : Option β}
    (h : OptionSalvaged R x y) (hR : ∀ x y, R x y → R' x y) : OptionSalvaged R' x y := by
  cases x with
  | none => exact h
  | some x => exact hR _ _ h

theorem optionSalvaged_map {α β γ : Type} {R : β → Option γ → Prop} {f : α → β} {x : Option α}
    {y : Option γ} :
    OptionSalvaged R (x.map f) y ↔ OptionSalvaged (fun x => R (f x)) x y := by
  cases x <;> exact Iff.rfl

theorem EntriesSalvaged.imp {α β : Type} {R R' : String → α → Option β → Prop} {location : String}
    {m : OrderedMap String α} {m' : OrderedMap String β} (h : EntriesSalvaged R location m m')
    (hR : ∀ location x y, R location x y → R' location x y) :
    EntriesSalvaged R' location m m' :=
  Salvaged.imp h fun _ _ ⟨o, ho, hx⟩ => ⟨o, ho, hR _ _ _ hx⟩

theorem OrReference.Used.imp {α β : Type} {s : Section} {table : OrderedMap String β}
    {sited sited' : String → α → β → Prop} {location : String} {r : OrReference α} {y : Option β}
    (h : r.Used s table sited location y)
    (hsited : ∀ location part q, sited location part q → sited' location part q) :
    r.Used s table sited' location y := by
  cases r with
  | reference target => exact h
  | inPlace part => exact fun q hq => hsited _ _ _ (h q hq)

section

variable {a b : Arena} {t : Loading} {location : String}

theorem Json.Sited.mono (hab : a.Keeps b) {j : Json} {id : Option Nat}
    (h : j.Sited a location id) : j.Sited b location id := by
  unfold Json.Sited at h ⊢
  split
  · next hs =>
    rw [hs] at h
    obtain ⟨i, hi, hheld⟩ := h
    exact ⟨i, hi, hab _ _ _ hheld⟩
  · next he =>
    rw [he] at h
    exact h

theorem ContentObject.Sited.mono (hab : a.Keeps b) {c : ContentObject} {c' : Content}
    (h : c.Sited a location c') : c.Sited b location c' :=
  h.imp fun _ _ he => ⟨he.1, he.2.imp fun _ _ => .mono hab⟩

theorem ValueSited.mono (hab : a.Keeps b) {own : Option Json} {entries : Option ContentObject}
    {id : Option Nat} (h : ValueSited a location own entries id) :
    ValueSited b location own entries id := h.imp fun _ _ => .mono hab

theorem HeaderObject.Used.mono (hab : a.Keeps b) {h : OrReference HeaderObject}
    {g : Option Header} (hg : HeaderObject.Used t a location h g) :
    HeaderObject.Used t b location h g :=
  OrReference.Used.imp hg fun _ _ _ => ValueSited.mono hab

theorem PartKind.Sited.mono (hab : a.Keeps b) {k : PartKind} {part : k.Source} {q : k.Part}
    (h : k.Sited t a location part q) : k.Sited t b location part q := by
  cases k with
  | header => exact ValueSited.mono hab h
  | parameter => exact ValueSited.mono hab h
  | requestBody => exact ContentObject.Sited.mono hab h
  | response =>
    exact ⟨ContentObject.Sited.mono hab h.content,
      h.headers.imp fun _ _ _ => HeaderObject.Used.mono hab⟩

theorem PartKind.Used.mono (hab : a.Keeps b) {k : PartKind} {r : OrReference k.Source}
    {y : Option k.Part} (h : k.Used t a location r y) : k.Used t b location r y :=
  OrReference.Used.imp h fun _ _ _ => PartKind.Sited.mono hab

theorem ParametersSited.mono (hab : a.Keeps b) {ps : List (OrReference ParameterObject)}
    {qs : List Parameter} (h : ParametersSited t a location ps qs) :
    ParametersSited t b location ps qs := h.imp fun _ _ => PartKind.Used.mono hab

theorem OperationObject.Sited.mono (hab : a.Keeps b) {o : OperationObject} {op : Operation}
    (h : o.Sited t a location op) : o.Sited t b location op where
  parameters := h.parameters.mono hab
  requestBody := h.requestBody.imp fun _ _ => PartKind.Used.mono hab
  responses := h.responses.imp fun _ _ _ => PartKind.Used.mono hab

theorem OperationSited.mono (hab : a.Keeps b) {e : HttpMethod × Json} {op : Option Operation}
    (h : OperationSited t a location e op) : OperationSited t b location e op := by
  unfold OperationSited at h ⊢
  split
  · next ho =>
    rw [ho] at h
    obtain ⟨op', hop, hmethod, hsited⟩ := h
    exact ⟨op', hop, hmethod, hsited.mono hab⟩
  · next he =>
    rw [he] at h
    exact h

theorem PathSited.mono (hab : a.Keeps b) {e : String × Json} {item : Option PathItem}
    (h : PathSited t a e item) : PathSited t b e item := by
  intro i hi
  obtain ⟨hpath, raw, hraw, hoperations, ps, hps, hparameters⟩ := h i hi
  exact ⟨hpath, raw, hraw, hoperations.imp fun _ _ => .mono hab, ps, hps, hparameters.mono hab⟩

end

namespace Arena

theorem locations_intern (a : Arena) (location : String) (s : SchemaObject) :
    (a.intern location s).locations =
      a.locations ++ (s.layOut location a.size).map (·.location) := by
  simp only [intern, locations, size, Array.toList_append, List.map_append]

theorem locations_setComponent (a : Arena) (id : Nat) (name : Option String) :
    (a.setComponent id name).locations = a.locations := by
  refine List.ext_getElem? fun i => ?_
  simp only [locations, setComponent, List.getElem?_map, Array.getElem?_toList,
    Array.getElem?_modify]
  split
  · cases a.nodes[i]? <;> rfl
  · rfl

end Arena

namespace Loading

structure Extends (l' l : Loading) : Prop where
  same : l'.SameParts l
  keeps : l.arena.Keeps l'.arena

theorem Extends.refl (l : Loading) : l.Extends l := ⟨.refl l, .refl _⟩

theorem Extends.trans {l l' l'' : Loading} (h' : l''.Extends l') (h : l'.Extends l) :
    l''.Extends l := ⟨h'.same.trans h.same, h.keeps.trans h'.keeps⟩

structure Adds (l l' : Loading) (area : Set Place) : Prop where
  keeps : l.arena.Keeps l'.arena
  distinct : l.arena.Distinct → l'.arena.Distinct
  sites : ∃ new : List Place, new.Nodup ∧ (∀ p ∈ new, p ∈ area) ∧
    l'.arena.locations = l.arena.locations ++ new.map Place.pointer

namespace Adds

variable {l l' l'' : Loading} {area area' : Set Place}

theorem of_locations (hkeeps : l.arena.Keeps l'.arena)
    (hdistinct : l.arena.Distinct → l'.arena.Distinct)
    (hlocations : l'.arena.locations = l.arena.locations) : l.Adds l' area :=
  ⟨hkeeps, hdistinct, [], .nil, by simp, by simpa using hlocations⟩

theorem within (h : l.Adds l' area) (harea : area ⊆ area') : l.Adds l' area' := by
  obtain ⟨new, hnodup, hnew, hlocations⟩ := h.sites
  exact ⟨h.keeps, h.distinct, new, hnodup, fun p hp => harea (hnew p hp), hlocations⟩

theorem trans (h : l.Adds l' area) (hapart : Disjoint area area') (h' : l'.Adds l'' area') :
    l.Adds l'' (area ∪ area') := by
  obtain ⟨new, hnodup, hnew, hlocations⟩ := h.sites
  obtain ⟨new', hnodup', hnew', hlocations'⟩ := h'.sites
  refine ⟨h.keeps.trans h'.keeps, h'.distinct ∘ h.distinct, new ++ new', ?_, ?_, ?_⟩
  · refine List.nodup_append'.2 ⟨hnodup, hnodup', fun p hp hp' => ?_⟩
    exact Set.disjoint_left.1 hapart (hnew p hp) (hnew' p hp')
  · exact List.forall_mem_append.2 ⟨fun p hp => .inl (hnew p hp), fun p hp => .inr (hnew' p hp)⟩
  · rw [hlocations', hlocations, List.map_append, List.append_assoc]

end Adds

/-- From `l` a loader leaves the shared parts alone and adds schemas in an area. Its result has a
property in the arena it leaves. -/
structure Fills {α : Type} (l : Loading) (m : Loader α) (area : Set Place)
    (good : Arena → α → Prop) : Prop where
  same : (m l).2.SameParts l
  adds : l.Adds (m l).2 area
  result : good (m l).2.arena (m l).1

namespace Fills

variable {α β : Type} {l : Loading} {area : Set Place} {good : Arena → α → Prop}

theorem pure {x : α} (h : good l.arena x) : l.Fills (Pure.pure x : Loader α) area good :=
  ⟨.refl l, .of_locations (.refl _) id rfl, h⟩

theorem of_eq {m m' : Loader α} (heq : m l = m' l) (h : l.Fills m' area good) :
    l.Fills m area good :=
  ⟨heq ▸ h.same, heq ▸ h.adds, heq ▸ h.result⟩

theorem map {m : Loader α} {f : α → β} {good' : Arena → β → Prop} (h : l.Fills m area good)
    (hf : ∀ a x, l.arena.Keeps a → good a x → good' a (f x)) :
    l.Fills (m >>= fun x => Pure.pure (f x)) area good' :=
  ⟨h.same, h.adds, hf _ _ h.adds.keeps h.result⟩

theorem weaken {m : Loader α} {good' : Arena → α → Prop} (h : l.Fills m area good)
    (hg : ∀ a x, l.arena.Keeps a → good a x → good' a x) : l.Fills m area good' :=
  ⟨h.same, h.adds, hg _ _ h.adds.keeps h.result⟩

theorem within {m : Loader α} {area' : Set Place} (h : l.Fills m area good)
    (harea : area ⊆ area') : l.Fills m area' good :=
  ⟨h.same, h.adds.within harea, h.result⟩

theorem bind {m : Loader α} {f : α → Loader β} {area' : Set Place} {good' : Arena → β → Prop}
    (h : l.Fills m area good) (hapart : Disjoint area area')
    (hf : ∀ x (l' : Loading), l'.Extends l → good l'.arena x → l'.Fills (f x) area' good') :
    l.Fills (m >>= f) (area ∪ area') good' := by
  have h' := hf (m l).1 (m l).2 ⟨h.same, h.adds.keeps⟩ h.result
  exact ⟨h'.same.trans h.same, h.adds.trans hapart h'.adds, h'.result⟩

theorem andThen {m : Loader α} {f : α → Loader β} {good' : Arena → β → Prop}
    (h : l.Fills m ∅ good)
    (hf : ∀ x (l' : Loading), l'.Extends l → good l'.arena x → l'.Fills (f x) area good') :
    l.Fills (m >>= f) area good' :=
  (h.bind (Set.empty_disjoint _) hf).within (Set.empty_union area).subset

section

variable {xs : List α} {areas : α → Set Place}

theorem mapM {f : α → Loader β} (R : Arena → α → β → Prop)
    (mono : ∀ {a b x y}, a.Keeps b → R a x y → R b x y)
    (hapart : xs.Pairwise fun x y => Disjoint (areas x) (areas y))
    (h : ∀ x ∈ xs, ∀ l' : Loading, l'.Extends l → l'.Fills (f x) (areas x) fun a y => R a x y) :
    l.Fills (xs.mapM f) (Place.Among areas xs) fun a ys => List.Forall₂ (R a) xs ys := by
  induction xs generalizing l with
  | nil => exact pure .nil
  | cons x xs ih =>
    obtain ⟨hx, hxs⟩ := List.pairwise_cons.1 hapart
    rw [List.mapM_cons, Place.among_cons]
    refine (h x List.mem_cons_self l (.refl l)).bind (Place.disjoint_among hx) fun y l' hl' hy => ?_
    refine (ih (l := l') hxs fun x hx l'' hl'' =>
      h x (List.mem_cons_of_mem _ hx) l'' (hl''.trans hl')).map fun a ys ha hys => ?_
    exact .cons (mono ha hy) hys

theorem filterMapM {f : α → Loader (Option β)} (R : Arena → α → Option β → Prop)
    (mono : ∀ {a b x y}, a.Keeps b → R a x y → R b x y)
    (hapart : xs.Pairwise fun x y => Disjoint (areas x) (areas y))
    (h : ∀ x ∈ xs, ∀ l' : Loading, l'.Extends l → l'.Fills (f x) (areas x) fun a y => R a x y) :
    l.Fills (xs.filterMapM f) (Place.Among areas xs) fun a ys => Salvaged (R a) xs ys := by
  induction xs generalizing l with
  | nil => exact pure .nil
  | cons x xs ih =>
    obtain ⟨hx, hxs⟩ := List.pairwise_cons.1 hapart
    rw [List.filterMapM_cons, Place.among_cons]
    refine (h x List.mem_cons_self l (.refl l)).bind (Place.disjoint_among hx) fun y l' hl' hy => ?_
    have hrest := ih (l := l') hxs fun x hx l'' hl'' =>
      h x (List.mem_cons_of_mem _ hx) l'' (hl''.trans hl')
    cases y with
    | none => exact hrest.weaken fun a ys ha hys => .dropped (mono ha hy) hys
    | some y => exact hrest.map fun a ys ha hys => .kept (mono ha hy) hys

end

end Fills

end Loading

namespace Place

theorem pointer_step (p : Place) {key step : String} (h : "/" ++ escapeSegment key = step) :
    pointer (p ++ [key]) = p.pointer ++ step := by
  rw [pointer_push, String.append_assoc, h]

theorem pointer_schema (p : Place) : pointer (p ++ ["schema"]) = p.pointer ++ "/schema" :=
  p.pointer_step rfl

end Place

namespace Loader

variable {α β : Type} {l t : Loading} {p : Place}

theorem fills_complain (message : String) : l.Fills (complain message) ∅ fun _ _ => True :=
  ⟨fun s => by cases s <;> trivial, .of_locations (.refl _) id rfl, trivial⟩

theorem fills_read (decoder : Decoder α) (j : Json) (location : String) :
    l.Fills (read decoder j location) ∅ fun _ x => x = (decoder j).toOption := by
  unfold read
  cases decoder j with
  | ok x => exact .pure rfl
  | error e => exact (fills_complain _).map fun _ _ _ _ => rfl

theorem fills_objectAt (j : Option Json) (location : String) :
    l.Fills (objectAt j location) ∅ fun _ m => m = Json.entriesOf j := by
  rw [objectAt_eq]
  split
  · exact .pure rfl
  · exact (fills_complain _).map fun _ _ _ _ => rfl

theorem fills_schema {j : Json} (hj : j.Distinct) (p : Place) :
    l.Fills (schema j p.pointer) p.Under fun a id => j.Sited a p.pointer id := by
  unfold schema
  refine (fills_read _ _ _).andThen fun s l' hl' hs => ?_
  cases hdecode : SchemaObject.decode j.normalize with
  | error e =>
    rw [hdecode] at hs
    subst hs
    exact .pure (by rw [Json.Sited, hdecode])
  | ok s =>
    rw [hdecode] at hs
    subst hs
    have hdistinct : s.Distinct := SchemaObject.distinct_of_decode hj.normalize hdecode
    refine ⟨fun s => by cases s <;> trivial,
      ⟨l'.arena.keeps_intern _ _, fun h => h.intern hdistinct _, s.sites p, ?_, ?_, ?_⟩, ?_⟩
    · exact hdistinct.nodup_sites p
    · exact fun q hq => SchemaObject.sites_under hq
    · exact (l'.arena.locations_intern _ s).trans (congrArg _ (s.locations_layOut p _))
    · rw [Json.Sited, hdecode]
      exact ⟨_, rfl, l'.arena.holds_intern _ s⟩

theorem fills_optionalSchema {j : Option Json} (hj : ∀ v ∈ j, v.Distinct) (p : Place) :
    l.Fills (optionalSchema j p.pointer) p.Under
      fun a id => OptionSalvaged (Json.Sited a p.pointer) j id := by
  unfold optionalSchema
  cases j with
  | none => exact .pure rfl
  | some j => exact fills_schema (hj j rfl) p

def mediaPlace (p : Place) (mime : String) : Place := (p ++ ["content"]) ++ [mime, "schema"]

theorem pointer_mediaPlace (p : Place) (mime : String) :
    (mediaPlace p mime).pointer = contentLocation p.pointer mime := by
  simp only [mediaPlace, contentLocation, Place.pointer, List.foldl_append, List.foldl_cons,
    List.foldl_nil, String.append_assoc]
  rfl

theorem fills_content {c : ContentObject} (hc : c.Distinct) (p : Place) :
    l.Fills (content c p.pointer) (Place.Under (p ++ ["content"]))
      fun a c' => c.Sited a p.pointer c' := by
  have hapart : c.Pairwise fun e e' =>
      Disjoint (mediaPlace p e.1).Under (mediaPlace p e'.1).Under := by
    refine (List.pairwise_map.1 hc.1).imp fun hne => ?_
    exact Place.disjoint_keys (p ++ ["content"]) hne ["schema"] ["schema"]
  refine (Loading.Fills.mapM _ (fun hab h => ⟨h.1, h.2.imp fun _ _ => .mono hab⟩) hapart
    fun e he l' _ => ?_).within ?_
  · have hschema := fills_optionalSchema (l := l') (hc.2 e he) (mediaPlace p e.1)
    rw [pointer_mediaPlace] at hschema
    exact hschema.map fun a id _ hid => ⟨rfl, hid⟩
  · exact Place.among_subset fun e _ => Place.under_append (p ++ ["content"]) [e.1, "schema"]

theorem fills_valueSchema {own : Option Json} {entries : Option ContentObject}
    (hown : ∀ j ∈ own, j.Distinct) (hentries : ∀ c ∈ entries, c.Distinct) (p : Place) :
    l.Fills (valueSchema own entries p.pointer) p.Under
      fun a id => ValueSited a p.pointer own entries id := by
  unfold valueSchema ValueSited schemaSource
  split
  · next j =>
    rw [← p.pointer_schema]
    exact (fills_schema (hown j rfl) _).within (Place.under_append _ _)
  · next mime media rest =>
    have hmedia := (hentries _ rfl).2 _ List.mem_cons_self
    have hschema := fills_optionalSchema (l := l) hmedia (mediaPlace p mime)
    rw [pointer_mediaPlace] at hschema
    refine (hschema.within ((Place.under_append _ _).trans (Place.under_append _ _))).weaken
      fun a id _ hid => optionSalvaged_map.2 hid
  · next hnone =>
    refine .pure ?_
    cases entries with
    | none => rfl
    | some c =>
      cases c with
      | nil => rfl
      | cons e rest => exact (hnone e.1 e.2 rest rfl).elim

theorem fills_shared (s : Section) (parts : Loading → OrderedMap String β)
    (target location : String) :
    l.Fills (shared s parts target location) ∅
      fun _ y => y = (componentName? s target).bind (parts l).get? := by
  cases hfound : (componentName? s target).bind (parts l).get? with
  | some part => exact .of_eq (shared_of_some hfound location) (.pure rfl)
  | none =>
    exact .of_eq (shared_of_none hfound location) ((fills_complain _).map fun _ _ _ _ => rfl)

theorem fills_reference (k : PartKind) (hl : l.SameParts t) (target location : String) :
    l.Fills (k.shelf.load (.reference target) location) ∅
      fun a y => k.Used t a location (.reference target) y := by
  rw [k.lawful.load_reference]
  refine (fills_shared _ _ _ _).weaken fun a y _ hy => ?_
  rw [hy, k.lawful.parts_eq _ _ (hl k.place)]
  rfl

theorem fills_header (hl : l.SameParts t) {h : OrReference HeaderObject}
    (hh : h.Holds HeaderObject.Distinct) (p : Place) :
    l.Fills (header h p.pointer) p.Under fun a g => HeaderObject.Used t a p.pointer h g := by
  cases h with
  | reference target => exact (fills_reference .header hl target _).within (Set.empty_subset _)
  | inPlace h =>
    obtain ⟨hschema, hcontent⟩ := hh h rfl
    refine (fills_valueSchema hschema hcontent p).map fun a id _ hid => ?_
    rintro _ ⟨⟩
    exact hid

theorem fills_parameter (hl : l.SameParts t) {r : OrReference ParameterObject}
    (hr : r.Holds ParameterObject.Distinct) (p : Place) :
    l.Fills (parameter r p.pointer) p.Under
      fun a q => PartKind.parameter.Used t a p.pointer r q := by
  cases r with
  | reference target =>
    exact (fills_reference .parameter hl target _).within (Set.empty_subset _)
  | inPlace r =>
    obtain ⟨hschema, hcontent⟩ := hr r rfl
    unfold parameter
    simp only
    split
    · refine ((fills_complain _).map fun a _ _ _ => ?_).within (Set.empty_subset _)
      rintro _ ⟨⟩
    · refine (fills_valueSchema hschema hcontent p).map fun a id _ hid => ?_
      rintro _ ⟨⟩
      exact hid

theorem fills_requestBody (hl : l.SameParts t) {b : OrReference RequestBodyObject}
    (hb : b.Holds RequestBodyObject.Distinct) (p : Place) :
    l.Fills (requestBody b p.pointer) p.Under
      fun a c => PartKind.requestBody.Used t a p.pointer b c := by
  cases b with
  | reference target =>
    exact (fills_reference .requestBody hl target _).within (Set.empty_subset _)
  | inPlace b =>
    refine ((fills_content (hb b rfl) p).within (Place.under_append _ _)).map fun a c _ hc => ?_
    rintro _ ⟨⟩
    exact hc

theorem fills_optionalBody (hl : l.SameParts t) {b : Option (OrReference RequestBodyObject)}
    (hb : ∀ r ∈ b, r.Holds RequestBodyObject.Distinct) (p : Place) :
    l.Fills (optionalBody b p.pointer) p.Under
      fun a c => OptionSalvaged (PartKind.requestBody.Used t a p.pointer) b c := by
  unfold optionalBody
  cases b with
  | none => exact .pure rfl
  | some b => exact fills_requestBody hl (hb b rfl) p

theorem fills_entries {m : OrderedMap String α} {load : α → String → Loader (Option β)}
    (R : Arena → String → α → Option β → Prop)
    (mono : ∀ {a b location x y}, a.Keeps b → R a location x y → R b location x y)
    (hm : m.keys.Nodup) (p : Place)
    (h : ∀ e ∈ m, ∀ (q : Place) (l' : Loading), l'.Extends l →
      l'.Fills (load e.2 q.pointer) q.Under fun a y => R a q.pointer e.2 y) :
    l.Fills (entries m load p.pointer) p.Under
      fun a m' => EntriesSalvaged (R a) p.pointer m m' := by
  have hapart : m.Pairwise fun e e' =>
      Disjoint (Place.Under (p ++ [e.1])) (Place.Under (p ++ [e'.1])) :=
    (List.pairwise_map.1 hm).imp fun hne => p.disjoint_keys hne [] []
  refine (Loading.Fills.filterMapM (fun a (e : String × α) (y : Option (String × β)) =>
      ∃ o, y = o.map (e.1, ·) ∧ R a (p.pointer ++ "/" ++ escapeSegment e.1) e.2 o)
    (fun hab hy => ?_) hapart fun e he l' hl' => ?_).within ?_
  · obtain ⟨o, ho, hR⟩ := hy
    exact ⟨o, ho, mono hab hR⟩
  · have hload := h e he (p ++ [e.1]) l' hl'
    rw [Place.pointer_push] at hload
    exact hload.map fun a y _ hy => ⟨y, rfl, hy⟩
  · exact Place.among_subset fun e _ => Place.under_append p [e.1]

theorem fills_response (hl : l.SameParts t) {r : OrReference ResponseObject}
    (hr : r.Holds ResponseObject.Distinct) (p : Place) :
    l.Fills (response r p.pointer) p.Under
      fun a q => PartKind.response.Used t a p.pointer r q := by
  cases r with
  | reference target =>
    exact (fills_reference .response hl target _).within (Set.empty_subset _)
  | inPlace r =>
    obtain ⟨hcontent, hnames, hheaders⟩ := hr r rfl
    have hplace : Place.pointer (p ++ ["headers"]) = p.pointer ++ "/headers" := p.pointer_step rfl
    refine ((fills_content hcontent p).bind (p.disjoint_keys (by decide) [] []) fun c l' hl' hc =>
      ?_).within (Set.union_subset (Place.under_append _ _) (Place.under_append _ ["headers"]))
    rw [← hplace]
    refine (fills_entries (fun a => HeaderObject.Used t a) (fun hab => HeaderObject.Used.mono hab)
      hnames _ fun e he q l'' hl'' =>
        fills_header (hl''.same.trans (hl'.same.trans hl)) (hheaders e he) q).map
      fun a hs ha hhs => ?_
    rintro _ ⟨⟩
    rw [hplace] at hhs
    exact ⟨hc.mono ha, hhs⟩

def parameterPlace (p : Place) (place : Nat) : Place := (p ++ ["parameters"]) ++ [toString place]

theorem pointer_parameterPlace (p : Place) (place : Nat) :
    (parameterPlace p place).pointer = p.pointer ++ "/parameters/" ++ toString place := by
  simp only [parameterPlace, Place.pointer, List.foldl_append, List.foldl_cons, List.foldl_nil,
    String.append_assoc, escapeSegment_toString]
  rfl

theorem fills_parameters (hl : l.SameParts t) {ps : List (OrReference ParameterObject)}
    (hps : ∀ r ∈ ps, r.Holds ParameterObject.Distinct) (p : Place) :
    l.Fills (parameters ps p.pointer) (Place.Under (p ++ ["parameters"]))
      fun a qs => ParametersSited t a p.pointer ps qs := by
  have hnumbers : (ps.zipIdx.map Prod.snd).Nodup := by
    rw [List.zipIdx_map_snd]
    exact List.nodup_range'
  have hapart : ps.zipIdx.Pairwise fun e e' =>
      Disjoint (parameterPlace p e.2).Under (parameterPlace p e'.2).Under :=
    (List.pairwise_map.1 hnumbers).imp fun hne =>
      Place.disjoint_keys _ (Text.toString_nat_injective.ne hne) [] []
  refine (Loading.Fills.filterMapM (fun a e q => PartKind.parameter.Used t a
      (p.pointer ++ "/parameters/" ++ toString e.2) e.1 q)
    (fun hab => PartKind.Used.mono hab) hapart fun e he l' hl' => ?_).within ?_
  · have hload := fills_parameter (hl'.same.trans hl) (hps e.1 (List.fst_mem_of_mem_zipIdx he))
      (parameterPlace p e.2)
    rwa [pointer_parameterPlace] at hload
  · exact Place.among_subset fun e _ => Place.under_append (p ++ ["parameters"]) [toString e.2]

theorem fills_operation (hl : l.SameParts t) (method : HttpMethod) {o : OperationObject}
    (ho : o.Distinct) (p : Place) :
    l.Fills (operation method o p.pointer) p.Under
      fun a op => op.method = method ∧ o.Sited t a p.pointer op := by
  have hbody : Place.pointer (p ++ ["requestBody"]) = p.pointer ++ "/requestBody" :=
    p.pointer_step rfl
  have hresponses : Place.pointer (p ++ ["responses"]) = p.pointer ++ "/responses" :=
    p.pointer_step rfl
  have hapart : Disjoint (Place.Under (p ++ ["parameters"]))
      (Place.Under (p ++ ["requestBody"]) ∪ Place.Under (p ++ ["responses"])) :=
    Set.disjoint_union_right.2
      ⟨p.disjoint_keys (by decide) [] [], p.disjoint_keys (by decide) [] []⟩
  have hcodes : (OrderedMap.keys (o.responses.filter fun e => !isExtension e.1)).Nodup :=
    ho.codes.sublist (List.filter_sublist.map _)
  unfold operation
  refine ((fills_parameters hl ho.parameters p).bind hapart fun ps l₁ hl₁ hps => ?_).within
    (Set.union_subset (Place.under_append _ _)
      (Set.union_subset (Place.under_append _ _) (Place.under_append _ _)))
  have hl₁' := hl₁.same.trans hl
  rw [← hbody, ← hresponses]
  refine (fills_optionalBody hl₁' ho.requestBody _).bind (p.disjoint_keys (by decide) [] [])
    fun c l₂ hl₂ hc => ?_
  refine (fills_entries (fun a => PartKind.response.Used t a) (fun hab => PartKind.Used.mono hab)
    hcodes _ fun e he q l₃ hl₃ => fills_response (hl₃.same.trans (hl₂.same.trans hl₁'))
      (ho.responses e (List.mem_filter.1 he).1) q).map fun a rs ha hrs => ?_
  rw [hbody] at hc
  rw [hresponses] at hrs
  exact ⟨rfl, hps.mono (hl₂.keeps.trans ha), hc.imp fun _ _ => PartKind.Used.mono ha, hrs⟩

theorem pointer_method (p : Place) (method : HttpMethod) :
    Place.pointer (p ++ [method.key]) = p.pointer ++ "/" ++ method.key := by
  rw [Place.pointer_push]
  cases method <;> rfl

theorem fills_operationAt (hl : l.SameParts t) (method : HttpMethod) {j : Json} (hj : j.Distinct)
    (p : Place) :
    l.Fills (operationAt method j (p.pointer ++ "/" ++ method.key))
      (Place.Under (p ++ [method.key]))
      fun a op => OperationSited t a p.pointer (method, j) op := by
  rw [← pointer_method]
  unfold operationAt
  refine (fills_read _ _ _).andThen fun o l₁ hl₁ ho => ?_
  cases hdecode : OperationObject.decode j with
  | error e =>
    rw [hdecode] at ho
    subst ho
    exact .pure (by rw [OperationSited, hdecode])
  | ok o' =>
    rw [hdecode] at ho
    subst ho
    refine (fills_operation (hl₁.same.trans hl) method
      (OperationObject.gives_decode j o' hj hdecode) _).map fun a op _ hop => ?_
    rw [pointer_method] at hop
    rw [OperationSited, hdecode]
    exact ⟨op, rfl, hop⟩

def methodArea (p : Place) : List HttpMethod → Set Place :=
  Place.Among fun method => Place.Under (p ++ [method.key])

theorem fills_operations (hl : l.SameParts t) (p : Place) (methods : List HttpMethod)
    (hmethods : (methods.map HttpMethod.key).Nodup) (raw : OrderedMap String Json)
    (hraw : (Json.object raw).Distinct) :
    l.Fills (operations p.pointer methods raw) (methodArea p methods) fun a x =>
      Salvaged (OperationSited t a p.pointer)
        (methods.filterMap fun method => (raw.get? method.key).map (method, ·)) x.1 ∧
        (Json.object x.2).Distinct ∧
        ∀ key, key ∉ methods.map HttpMethod.key → x.2.get? key = raw.get? key := by
  induction methods generalizing l raw with
  | nil => exact .pure ⟨.nil, hraw, fun _ _ => rfl⟩
  | cons method methods ih =>
    obtain ⟨hfresh, hmethods⟩ := List.nodup_cons.1 hmethods
    have hkeys := (Json.Distinct.object_iff.1 hraw).1
    have ih := fun l' hl' => @ih l' hl' hmethods _ (hraw.take method.key)
    have hleft := @get?_of_take raw method methods hkeys
    have hapart : Disjoint (Place.Under (p ++ [method.key])) (methodArea p methods) :=
      Place.disjoint_among fun other hother =>
        p.disjoint_keys (fun he => hfresh (List.mem_map.2 ⟨other, hother, he.symm⟩)) [] []
    rw [filterMap_take hkeys hfresh, methodArea, Place.among_cons]
    unfold operations
    split
    · next raw' htake =>
      rw [htake] at ih hleft ⊢
      refine ((ih l hl).within Set.subset_union_right).weaken fun a x _ h => ?_
      exact ⟨h.1, h.2.1, hleft h.2.2⟩
    · next j raw' htake =>
      have hvalue : raw.get? method.key = some j := by
        rw [← (OrderedMap.take_spec hkeys method.key).1, htake]
      have hj := hraw.get? hvalue
      rw [htake] at ih hleft ⊢
      refine (fills_operationAt hl method hj p).bind hapart fun first l₁ hl₁ hfirst => ?_
      refine (ih l₁ (hl₁.same.trans hl)).map fun a x ha h => ⟨?_, h.2.1, hleft h.2.2⟩
      have hfirst := hfirst.mono ha
      cases first with
      | none => exact .dropped hfirst h.1
      | some op => exact .kept hfirst h.1

theorem disjoint_parameters (p : Place) (methods : List HttpMethod) :
    Disjoint (methodArea p methods) (Place.Under (p ++ ["parameters"])) := by
  refine (Place.disjoint_among fun method _ => p.disjoint_keys ?_ [] []).symm
  cases method <;> decide

theorem fills_pathItem (hl : l.SameParts t) (path : String) {j : Json} (hj : j.Distinct) :
    l.Fills (pathItem path j) (Place.Under ["paths", path])
      fun a item => PathSited t a (path, j) item := by
  have hplace : Place.pointer ["paths", path] = "#/paths/" ++ escapeSegment path := rfl
  unfold pathItem
  simp only
  rw [← hplace]
  split
  · next raw =>
    split
    · refine ((fills_complain _).map fun a _ _ _ => ?_).within (Set.empty_subset _)
      rintro _ ⟨⟩
    · refine ((fills_operations hl _ HttpMethod.all methodKeys_nodup raw hj).bind
        (disjoint_parameters _ _) fun x l₁ hl₁ hx => ?_).within ?_
      · obtain ⟨hoperations, hrest, hothers⟩ := hx
        refine (fills_read _ _ _).andThen fun o l₂ hl₂ ho => ?_
        have hrecord : (o.getD .empty).Distinct ∧
            (declaredParameters raw = .ok (o.getD .empty).parameters ∨
              (o.getD .empty).parameters = []) := by
          subst ho
          cases hdecode : PathItemObject.decode (.object x.2) with
          | error e => exact ⟨PathItemObject.distinct_empty, .inr rfl⟩
          | ok o' =>
            refine ⟨PathItemObject.gives_decode _ o' hrest hdecode, .inl ?_⟩
            exact declaredParameters_of_decode (Json.Distinct.object_iff.1 hrest).1
              (hothers _ (by decide)) hdecode
        refine (fills_parameters (hl₂.same.trans (hl₁.same.trans hl)) hrecord.1 _).map
          fun a ps ha hps => ?_
        rintro _ ⟨⟩
        exact ⟨rfl, raw, rfl, hoperations.imp fun _ _ => .mono (hl₂.keeps.trans ha), _, hrecord.2,
          hps⟩
      · refine Set.union_subset (Place.among_subset fun method _ => ?_)
          (Place.under_append ["paths", path] ["parameters"])
        exact Place.under_append ["paths", path] [method.key]
  · refine ((fills_complain _).map fun a _ _ _ => ?_).within (Set.empty_subset _)
    rintro _ ⟨⟩

end Loader

end ApiModel
