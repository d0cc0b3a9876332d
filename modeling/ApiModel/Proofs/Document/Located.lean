import ApiModel.Proofs.Document.Filling

namespace ApiModel

namespace PartKind

variable {k : PartKind} {t t' : Loading} {a : Arena} {location : String} {declared : Declarations}

def Distinct : (k : PartKind) → k.Source → Prop
  | .header => HeaderObject.Distinct
  | .parameter => ParameterObject.Distinct
  | .requestBody => RequestBodyObject.Distinct
  | .response => ResponseObject.Distinct

theorem gives_decode (k : PartKind) : k.shelf.decode.Gives (OrReference.Holds k.Distinct) := by
  cases k with
  | header => exact OrReference.gives_decode HeaderObject.gives_decode
  | parameter => exact OrReference.gives_decode ParameterObject.gives_decode
  | requestBody => exact OrReference.gives_decode RequestBodyObject.gives_decode
  | response => exact OrReference.gives_decode ResponseObject.gives_decode

theorem fills_load (k : PartKind) {l : Loading} {r : OrReference k.Source}
    (hr : r.Holds k.Distinct) (p : Place) :
    l.Fills (k.shelf.load r p.pointer) p.Under fun a y => k.Used l a p.pointer r y := by
  cases k with
  | header => exact Loader.fills_header (.refl l) hr p
  | parameter => exact Loader.fills_parameter (.refl l) hr p
  | requestBody => exact Loader.fills_requestBody (.refl l) hr p
  | response => exact Loader.fills_response (.refl l) hr p

structure Grows (k : PartKind) (t t' : Loading) : Prop where
  parts : ∀ name q, (k.shelf.parts t).get? name = some q → (k.shelf.parts t').get? name = some q
  headers : k = .response → t'.headers = t.headers

theorem Sited.grow (h : k.Grows t t') {part : k.Source} {q : k.Part}
    (hq : k.Sited t a location part q) : k.Sited t' a location part q := by
  cases k with
  | response =>
    have hheaders : HeaderObject.Used t' a = HeaderObject.Used t a := by
      rw [HeaderObject.Used, HeaderObject.Used, h.headers rfl]
    exact ⟨hq.content, hheaders ▸ hq.headers⟩
  | _ => exact hq

theorem Used.grow (h : k.Grows t t') {r : OrReference k.Source} {q : k.Part}
    (hq : k.Used t a location r (some q)) : k.Used t' a location r (some q) := by
  cases r with
  | reference target =>
    obtain ⟨name, hname, hget⟩ := Option.bind_eq_some_iff.1 (Eq.symm hq)
    exact (Option.bind_eq_some_iff.2 ⟨name, hname, h.parts name q hget⟩).symm
  | inPlace part => exact fun q' hq' => (hq q' hq').grow h

theorem Filed.mono {b : Arena} (h : k.Filed declared t a) (hab : a.Keeps b)
    (hparts : k.shelf.parts t' = k.shelf.parts t)
    (hheaders : k = .response → t'.headers = t.headers) : k.Filed declared t' b := by
  intro e he
  obtain ⟨j, r, hj, hr, hused⟩ := h e (hparts ▸ he)
  refine ⟨j, r, hj, hr, (hused.mono hab).grow ⟨fun name q hget => ?_, hheaders⟩⟩
  rw [hparts, hget]

theorem arena_keep (k : PartKind) (name : String) (part : k.Part) (l : Loading) :
    (k.shelf.keep name part l).2.arena = l.arena := by
  cases k <;> rfl

def home (k : PartKind) (name : String) : Place := ["components", k.key] ++ [name]

theorem pointer_home (k : PartKind) (name : String) :
    (k.home name).pointer = k.place.location name := by
  cases k <;> rfl

theorem fills_entry (k : PartKind) {l : Loading} {e : String × Json} (he : e.2.Distinct) :
    l.Fills (Loader.readThen k.shelf.decode k.shelf.load e.2 (k.place.location e.1))
      (k.home e.1).Under fun a y => ∀ q ∈ y, ∃ r, k.shelf.decode e.2 = .ok r ∧
        k.Used l a (k.place.location e.1) r (some q) := by
  rw [← pointer_home]
  cases hr : k.shelf.decode e.2 with
  | error err =>
    rw [Shelf.readThen_of_error hr]
    refine ((Loader.fills_complain _).map fun _ _ _ _ => ?_).within (Set.empty_subset _)
    rintro _ ⟨⟩
  | ok r =>
    rw [Shelf.readThen_of_ok hr]
    refine (k.fills_load (k.gives_decode _ r he hr) _).weaken fun a y _ hy => ?_
    rintro q ⟨⟩
    exact ⟨r, rfl, hy⟩

theorem adds_store (k : PartKind) (l : Loading) {e : String × Json} (he : e.2.Distinct) :
    l.Adds (k.shelf.store e l).2 (k.home e.1).Under := by
  have hentry := (k.fills_entry (l := l) he).adds
  rw [Shelf.store_eq]
  split
  · obtain ⟨hkeeps, hdistinct, new, hnodup, hnew, hlocations⟩ := hentry
    refine ⟨?_, ?_, new, hnodup, hnew, ?_⟩
    · rw [arena_keep]
      exact hkeeps
    · rw [arena_keep]
      exact hdistinct
    · rw [arena_keep]
      exact hlocations
  · exact hentry

theorem filed_store {l : Loading} {e : String × Json} (he : e.2.Distinct)
    (hdeclared : declared k.place e.1 e.2) (hfresh : (k.shelf.parts l).get? e.1 = none)
    (h : k.Filed declared l l.arena) :
    k.Filed declared (k.shelf.store e l).2 (k.shelf.store e l).2.arena := by
  obtain ⟨hsame, ⟨hkeeps, -⟩, hresult⟩ := k.fills_entry (l := l) he
  rw [Shelf.store_eq, Shelf.result]
  generalize Loader.readThen k.shelf.decode k.shelf.load e.2 (k.place.location e.1) l = x
    at hsame hkeeps hresult
  obtain ⟨part, l₁⟩ := x
  have hparts : k.shelf.parts l₁ = k.shelf.parts l := k.lawful.parts_eq _ _ (hsame k.place)
  cases part with
  | none => exact h.mono hkeeps hparts fun _ => hsame .headers
  | some part =>
    have hgrows : k.Grows l (k.shelf.keep e.1 part l₁).2 := by
      refine ⟨fun name q hget => ?_, ?_⟩
      · have hne : name ≠ e.1 := by
          rintro rfl
          rw [hfresh] at hget
          cases hget
        rw [k.lawful.keep_parts, OrderedMap.get?_insert_of_ne _ _ hne, hparts, hget]
      · rintro rfl
        exact (response.lawful.keep_others e.1 part l₁ .headers (by decide)).trans (hsame .headers)
    intro e' he'
    rw [arena_keep]
    rw [k.lawful.keep_parts, hparts] at he'
    rcases OrderedMap.mem_insert he' with he' | rfl
    · obtain ⟨j, r, hj, hr, hused⟩ := h e' he'
      exact ⟨j, r, hj, hr, (hused.mono hkeeps).grow hgrows⟩
    · obtain ⟨r, hr, hused⟩ := hresult part rfl
      exact ⟨e.2, r, hdeclared, hr, hused.grow hgrows⟩

theorem adds_run (k : PartKind) {es : List (String × Json)} (hkeys : (es.map Prod.fst).Nodup)
    (hes : ∀ e ∈ es, e.2.Distinct) (l : Loading) :
    l.Adds (k.shelf.run es l) (Place.Among (fun e => (k.home e.1).Under) es) := by
  induction es generalizing l with
  | nil => exact .of_locations (.refl _) id rfl
  | cons e es ih =>
    obtain ⟨he, hes⟩ := List.forall_mem_cons.1 hes
    obtain ⟨hnew, hkeys⟩ := List.nodup_cons.1 hkeys
    rw [Place.among_cons]
    refine (k.adds_store l he).trans (Place.disjoint_among fun other hother => ?_) (ih hkeys hes _)
    have hne : e.1 ≠ other.1 := fun he => hnew (List.mem_map.2 ⟨other, hother, he.symm⟩)
    exact Place.disjoint_keys ["components", k.key] hne [] []

theorem filed_run {es : List (String × Json)} (hkeys : (es.map Prod.fst).Nodup)
    (hes : ∀ e ∈ es, e.2.Distinct) (hdeclared : ∀ e ∈ es, declared k.place e.1 e.2) {l : Loading}
    (hfresh : ∀ e ∈ es, (k.shelf.parts l).get? e.1 = none) (h : k.Filed declared l l.arena) :
    k.Filed declared (k.shelf.run es l) (k.shelf.run es l).arena := by
  induction es generalizing l with
  | nil => exact h
  | cons e es ih =>
    obtain ⟨he, hes⟩ := List.forall_mem_cons.1 hes
    obtain ⟨hd, hdeclared⟩ := List.forall_mem_cons.1 hdeclared
    obtain ⟨hf, hfresh⟩ := List.forall_mem_cons.1 hfresh
    obtain ⟨hnew, hkeys⟩ := List.nodup_cons.1 hkeys
    refine ih hkeys hes hdeclared (fun other hother => ?_) (filed_store he hd hf h)
    have hne : other.1 ≠ e.1 := fun he => hnew (List.mem_map.2 ⟨other, hother, he⟩)
    rw [Shelf.get?_store_of_ne k.lawful l hne]
    exact hfresh other hother

section

variable {j : Option Json} (hkeys : (Json.entriesOf j).keys.Nodup)
  (hvalues : ∀ e ∈ Json.entriesOf j, e.2.Distinct)

include hkeys hvalues

theorem adds_load (k : PartKind) (l : Loading) :
    l.Adds (k.load j l).2 (Place.Under ["components", k.key]) := by
  have hobject := (Loader.fills_objectAt (l := l) j k.place.root).adds
  rw [load_eq]
  refine (hobject.trans (Set.empty_disjoint _) (k.adds_run hkeys hvalues _)).within ?_
  rw [Set.empty_union]
  exact Place.among_subset fun e _ => Place.under_append ["components", k.key] [e.1]

theorem filed_load (hdeclared : ∀ e ∈ Json.entriesOf j, declared k.place e.1 e.2) {l : Loading}
    (hempty : k.shelf.parts l = []) : k.Filed declared (k.load j l).2 (k.load j l).2.arena := by
  have hobject := Loader.fills_objectAt (l := l) j k.place.root
  have hparts := k.lawful.parts_eq _ _ (hobject.same k.place)
  rw [hempty] at hparts
  rw [load_eq]
  refine filed_run hkeys hvalues hdeclared (fun e _ => ?_) fun e he => ?_
  · rw [hparts]
    rfl
  · rw [hparts] at he
    cases he

end

section

variable {components : OrderedMap String Json}
  (hkeys : ∀ k : PartKind, (Json.entriesOf (components.get? k.key)).keys.Nodup)
  (hvalues : ∀ k : PartKind, ∀ e ∈ Json.entriesOf (components.get? k.key), e.2.Distinct)

include hkeys hvalues

theorem adds_loads {ks : List PartKind} (hks : ks.Nodup) (l : Loading) :
    l.Adds (loads components ks l)
      (Place.Among (fun k : PartKind => Place.Under ["components", k.key]) ks) := by
  induction ks generalizing l with
  | nil => exact .of_locations (.refl _) id rfl
  | cons k ks ih =>
    obtain ⟨hk, hks⟩ := List.nodup_cons.1 hks
    rw [Place.among_cons]
    refine (adds_load (hkeys k) (hvalues k) k l).trans (Place.disjoint_among fun other hother => ?_)
      (ih hks _)
    have hkey : k.key ≠ other.key := by
      have hne : k ≠ other := fun he => hk (he ▸ hother)
      revert hne
      cases k <;> cases other <;> decide
    exact Place.disjoint_keys ["components"] hkey [] []

omit hkeys hvalues in
theorem exists_around (k : PartKind) : ∃ before after, all = before ++ k :: after ∧ k ∉ before ∧
    k ∉ after ∧ after.Nodup ∧ (k = .response → .header ∉ after) := by
  cases k with
  | header => exact ⟨[], [.parameter, .requestBody, .response], by decide⟩
  | parameter => exact ⟨[.header], [.requestBody, .response], by decide⟩
  | requestBody => exact ⟨[.header, .parameter], [.response], by decide⟩
  | response => exact ⟨[.header, .parameter, .requestBody], [], by decide⟩

theorem filed_sharedParts
    (hdeclared : ∀ k : PartKind, ∀ e ∈ Json.entriesOf (components.get? k.key),
      declared k.place e.1 e.2) {l : Loading} (hempty : ∀ k : PartKind, k.shelf.parts l = [])
    (k : PartKind) : k.Filed declared (Loader.sharedParts components l).2
      (Loader.sharedParts components l).2.arena := by
  obtain ⟨before, after, hall, hbefore, hafter, hnodup, hheaders⟩ := exists_around k
  rw [Loader.sharedParts_eq, hall, loads, List.foldl_append, List.foldl_cons]
  have hbare : k.shelf.parts (loads components before l) = [] :=
    (k.lawful.parts_eq _ _ (loads_others hbefore l)).trans (hempty k)
  have hfiled := filed_load (hkeys k) (hvalues k) (hdeclared k) hbare
  exact hfiled.mono (adds_loads hkeys hvalues hnodup _).keeps
    (k.lawful.parts_eq _ _ (loads_others hafter _)) fun hk => loads_others (hheaders hk) _

end

end PartKind

structure Loading.Builds {α : Type} (l : Loading) (m : Loader α) (area : Set Place)
    (good : Loading → α → Prop) : Prop where
  adds : l.Adds (m l).2 area
  result : good (m l).2 (m l).1

namespace Loading.Builds

variable {α β : Type} {l : Loading} {area area' : Set Place} {good : Loading → α → Prop}
  {good' : Loading → β → Prop} {m : Loader α} {f : α → Loader β}

theorem bind (h : l.Builds m area good) (hapart : Disjoint area area')
    (hf : ∀ x (l' : Loading), l.arena.Keeps l'.arena → good l' x → l'.Builds (f x) area' good') :
    l.Builds (m >>= f) (area ∪ area') good' := by
  have h' := hf (m l).1 (m l).2 h.adds.keeps h.result
  exact ⟨h.adds.trans hapart h'.adds, h'.result⟩

theorem within (h : l.Builds m area good) (harea : area ⊆ area') : l.Builds m area' good :=
  ⟨h.adds.within harea, h.result⟩

theorem of_fills {good : Arena → α → Prop} (h : l.Fills m area good)
    (hapart : Disjoint area area')
    (hf : ∀ x (l' : Loading), l'.Extends l → good l'.arena x → l'.Builds (f x) area' good') :
    l.Builds (m >>= f) (area ∪ area') good' := by
  have hbuilds : l.Builds m area fun l' x => l'.SameParts l ∧ good l'.arena x :=
    ⟨h.adds, h.same, h.result⟩
  exact hbuilds.bind hapart fun x l' hkeeps hx => hf x l' ⟨hx.1, hkeeps⟩ hx.2

theorem andThen {good : Arena → α → Prop} (h : l.Fills m ∅ good)
    (hf : ∀ x (l' : Loading), l'.Extends l → good l'.arena x → l'.Builds (f x) area good') :
    l.Builds (m >>= f) area good' :=
  (of_fills h (Set.empty_disjoint _) hf).within (Set.empty_union area).subset

end Loading.Builds

namespace Loader

variable {l t : Loading}

theorem fills_version (j : Option Json) : l.Fills (version j) ∅ fun _ _ => True := by
  unfold version
  split
  · exact (fills_complain _).map fun _ _ _ _ => trivial
  · split
    · exact .pure trivial
    · exact (fills_complain _).map fun _ _ _ _ => trivial

theorem fills_info (j : Option Json) : l.Fills (info j) ∅ fun _ _ => True := by
  unfold info
  split
  · exact (fills_read _ _ _).map fun _ _ _ _ => trivial
  · exact (fills_complain _).map fun _ _ _ _ => trivial

theorem fills_optionalPart {α : Type} (decoder : Decoder α) (j : Option Json) (location : String) :
    l.Fills (optionalPart decoder j location) ∅ fun _ _ => True := by
  unfold optionalPart
  cases j with
  | none => exact .pure trivial
  | some j => exact (fills_read _ _ _).weaken fun _ _ _ _ => trivial

section

variable {j : Option Json} (hkeys : (Json.entriesOf j).keys.Nodup)
  (hvalues : ∀ e ∈ Json.entriesOf j, e.2.Distinct)

include hkeys hvalues

theorem fills_schemas : l.Fills (schemas j) (Place.Under ["components", "schemas"])
    fun a ids => EntriesSalvaged (fun location j id => Json.Sited a location j id)
      Section.schemas.root (Json.entriesOf j) ids := by
  refine (fills_objectAt _ _).andThen fun m l' _ hm => ?_
  subst hm
  exact fills_entries (fun a location j id => Json.Sited a location j id) (fun hab => .mono hab)
    hkeys ["components", "schemas"] fun e he q l'' _ => fills_schema (hvalues e he) q

omit hvalues in
theorem fills_securitySchemes :
    l.Fills (securitySchemes j) (Place.Under ["components", "securitySchemes"])
      fun _ _ => True := by
  refine (fills_objectAt _ _).andThen fun m l' _ hm => ?_
  subst hm
  refine (fills_entries (fun _ _ _ _ => True) (fun _ h => h) hkeys
    ["components", "securitySchemes"] fun e _ q l'' _ => ?_).weaken fun _ _ _ _ => trivial
  exact ((fills_read _ _ _).weaken fun _ _ _ _ => trivial).within (Set.empty_subset _)

end

theorem fills_markComponents (schemas : OrderedMap String Nat) :
    l.Fills (markComponents schemas) ∅ fun _ _ => True := by
  have hmarks : ∀ (entries : OrderedMap String Nat) (a : Arena),
      let b := entries.foldl (fun a e => a.setComponent e.2 (some e.1)) a
      a.Keeps b ∧ (a.Distinct → b.Distinct) ∧ b.locations = a.locations := by
    intro entries
    induction entries with
    | nil => exact fun a => ⟨.refl a, id, rfl⟩
    | cons e entries ih =>
      intro a
      obtain ⟨hkeeps, hdistinct, hlocations⟩ := ih (a.setComponent e.2 (some e.1))
      exact ⟨(a.keeps_setComponent _ _).trans hkeeps, fun h => hdistinct (h.setComponent _ _),
        hlocations.trans (a.locations_setComponent _ _)⟩
  obtain ⟨hkeeps, hdistinct, hlocations⟩ := hmarks schemas l.arena
  exact ⟨fun s => by cases s <;> trivial, .of_locations hkeeps hdistinct hlocations, trivial⟩

theorem fills_pathItems (hl : l.SameParts t) {es : OrderedMap String Json} (hkeys : es.keys.Nodup)
    (hes : ∀ e ∈ es, e.2.Distinct) :
    l.Fills (es.filterMapM fun (path, j) => pathItem path j) (Place.Under ["paths"])
      fun a items => Salvaged (PathSited t a) es items := by
  have hapart : es.Pairwise fun e e' =>
      Disjoint (Place.Under ["paths", e.1]) (Place.Under ["paths", e'.1]) :=
    (List.pairwise_map.1 hkeys).imp fun hne => Place.disjoint_keys ["paths"] hne [] []
  refine (Loading.Fills.filterMapM (PathSited t) (fun hab => PathSited.mono hab) hapart
    fun e he l' hl' => fills_pathItem (hl'.same.trans hl) e.1 (hes e he)).within ?_
  exact Place.among_subset fun e _ => Place.under_append ["paths"] [e.1]

theorem builds_pathItems {es : OrderedMap String Json} (hkeys : es.keys.Nodup)
    (hes : ∀ e ∈ es, e.2.Distinct) :
    l.Builds (es.filterMapM fun (path, j) => pathItem path j) (Place.Under ["paths"])
      fun l' items => l'.SameParts l ∧ Salvaged (PathSited l' l'.arena) es items := by
  have h := fills_pathItems (.refl l) hkeys hes
  exact ⟨h.adds, h.same, (fills_pathItems h.same.symm hkeys hes).result⟩

def sharedArea : Set Place :=
  Place.Among (fun k : PartKind => Place.Under ["components", k.key]) PartKind.all

theorem disjoint_sharedArea {key : String} (h : ∀ k : PartKind, key ≠ k.key) :
    Disjoint (Place.Under ["components", key]) sharedArea :=
  Place.disjoint_among fun k _ => Place.disjoint_keys ["components"] (h k) [] []

theorem disjoint_paths (key : String) :
    Disjoint (Place.Under ["components", key]) (Place.Under ["paths"]) :=
  Place.disjoint_keys [] (by decide) [key] []

theorem disjoint_sharedArea_paths : Disjoint sharedArea (Place.Under ["paths"]) :=
  (Place.disjoint_among fun k _ => (disjoint_paths k.key).symm).symm

theorem builds_document {root : OrderedMap String Json} (hroot : (Json.object root).Distinct)
    (hempty : ∀ k : PartKind, k.shelf.parts l = []) :
    l.Builds (document root)
      (Place.Under ["components", "schemas"] ∪ (Place.Under ["components", "securitySchemes"] ∪
        (sharedArea ∪ Place.Under ["paths"])))
      fun l' d => d.arena = l'.arena ∧ d.Sited root l' := by
  have hcomponents : (Json.object (rootEntries root "components")).Distinct :=
    Json.Distinct.object_iff.2 (Json.Distinct.entriesOf fun v hv => hroot.get? hv)
  have hsection : ∀ key, (componentEntries root key).keys.Nodup ∧
      ∀ e ∈ componentEntries root key, e.2.Distinct := fun key =>
    Json.Distinct.entriesOf fun v hv => hcomponents.get? hv
  obtain ⟨hpathKeys, hpaths⟩ := Json.Distinct.entriesOf fun v (hv : root.get? "paths" = some v) =>
    hroot.get? hv
  unfold document
  refine .andThen (fills_version _) fun _ l₁ hl₁ _ => ?_
  refine .andThen (fills_info _) fun _ l₂ hl₂ _ => ?_
  refine .andThen (fills_optionalPart _ _ _) fun _ l₃ hl₃ _ => ?_
  refine .andThen (fills_optionalPart _ _ _) fun _ l₄ hl₄ _ => ?_
  refine .andThen (fills_objectAt _ _) fun components l₅ hl₅ hm => ?_
  subst hm
  refine .of_fills (fills_schemas (hsection _).1 (hsection _).2)
    (Set.disjoint_union_right.2 ⟨Place.disjoint_keys ["components"] (by decide) [] [],
      Set.disjoint_union_right.2 ⟨disjoint_sharedArea fun k => by cases k <;> decide,
        disjoint_paths _⟩⟩) fun schemas l₆ hl₆ hschemas => ?_
  refine .andThen (fills_markComponents _) fun _ l₇ hl₇ _ => ?_
  refine .of_fills (fills_securitySchemes (hsection _).1)
    (Set.disjoint_union_right.2 ⟨disjoint_sharedArea fun k => by cases k <;> decide,
        disjoint_paths _⟩) fun schemes l₈ hl₈ _ => ?_
  have hbare : ∀ k : PartKind, k.shelf.parts l₈ = [] := fun k => by
    have hl : l₈.Extends l := hl₈.trans <| hl₇.trans <| hl₆.trans <| hl₅.trans <| hl₄.trans <|
      hl₃.trans <| hl₂.trans hl₁
    exact (k.lawful.parts_eq _ _ (hl.same k.place)).trans (hempty k)
  have hshared : l₈.Builds (sharedParts (rootEntries root "components")) sharedArea
      fun l' _ => ∀ k : PartKind, k.Filed (declarationsOf root) l' l'.arena :=
    ⟨PartKind.adds_loads (fun k => (hsection k.key).1) (fun k => (hsection k.key).2)
      PartKind.nodup_all l₈,
      fun k => PartKind.filed_sharedParts (fun k => (hsection k.key).1)
        (fun k => (hsection k.key).2) (fun _ _ he => he) hbare k⟩
  refine .bind hshared disjoint_sharedArea_paths fun _ l₉ hl₉ hfiled => ?_
  refine .andThen (fills_objectAt _ _) fun raw l₁₀ hl₁₀ hm => ?_
  subst hm
  have hitems := @builds_pathItems l₁₀ ((rootEntries root "paths").filter fun e => !isExtension e.1)
    (hpathKeys.sublist (List.filter_sublist.map _)) fun e he => hpaths e (List.mem_filter.1 he).1
  have hsame := hitems.result.1.trans hl₁₀.same
  have hkeeps := hl₁₀.keeps.trans hitems.adds.keeps
  refine ⟨hitems.adds, rfl, ?_, fun k => ?_, hitems.result.2⟩
  · have hschemasKept := hl₇.keeps.trans (hl₈.keeps.trans (hl₉.trans hkeeps))
    exact hschemas.imp fun _ _ _ => .mono hschemasKept
  · exact (hfiled k).mono hkeeps (k.lawful.parts_eq _ _ (hsame k.place)) fun _ => hsame .headers

theorem arena_reference (k : PartKind) (target location : String) (l : Loading) :
    (k.shelf.load (.reference target) location l).2.arena = l.arena := by
  rw [k.lawful.load_reference]
  cases hfound : (componentName? k.place target).bind (k.shelf.parts l).get? with
  | some part =>
    rw [shared_of_some hfound]
    rfl
  | none =>
    rw [shared_of_none hfound]
    rfl

end Loader

namespace Document

theorem ofRoot_of_load {text : String} {o : Options} {d : Document} {complaints : List String}
    (h : load text o = .ok (d, complaints)) :
    ∃ root, root? text = .ok root ∧ ofRoot root = (d, complaints) := by
  unfold load at h
  obtain ⟨root, hroot, h⟩ := ok_of_bind h
  refine ⟨root, hroot, ?_⟩
  simp only at h
  split at h
  · exact Except.ok.inj h
  · cases h

theorem distinct_of_load {text : String} {o : Options} {d : Document} {complaints : List String}
    (h : load text o = .ok (d, complaints)) : d.arena.Distinct := by
  obtain ⟨root, hroot, hload⟩ := ofRoot_of_load h
  obtain ⟨hadds, harena, -⟩ := Loader.builds_document (root?_distinct hroot) (l := {})
    fun k => by cases k <;> rfl
  obtain rfl : ((Loader.document root).run {}).1 = d := congrArg Prod.fst hload
  rw [show ((Loader.document root).run {}).1.arena = _ from harena]
  exact hadds.distinct fun n hn => nomatch hn

theorem load_located {text : String} {o : Options} {d : Document} {complaints : List String}
    (h : load text o = .ok (d, complaints)) :
    ∃ root, root? text = .ok root ∧ d.arena.locations.Nodup ∧
      d.Sited root ((Loader.document root).run {}).2 ∧
      ∀ (k : PartKind) (target location : String) (l : Loading),
        (k.shelf.load (.reference target) location l).2.arena = l.arena := by
  obtain ⟨root, hroot, hload⟩ := ofRoot_of_load h
  obtain ⟨hadds, harena, hsited⟩ := Loader.builds_document (root?_distinct hroot) (l := {})
    fun k => by cases k <;> rfl
  obtain rfl : ((Loader.document root).run {}).1 = d := congrArg Prod.fst hload
  obtain ⟨new, hnodup, -, hlocations⟩ := hadds.sites
  refine ⟨root, hroot, ?_, hsited, Loader.arena_reference⟩
  rw [show ((Loader.document root).run {}).1.arena = _ from harena, hlocations]
  exact hnodup.map Place.pointer_injective

def crowded : String :=
  "\x7bopenapi: '3.1', info: \x7b\x7d, paths: \x7b/a: \x7bparameters: [\x7b$ref: " ++
    "'#/components/parameters/P'\x7d, \x7b$ref: Q\x7d], " ++
    "get: \x7bparameters: [\x7b$ref: '#/components/parameters/P'\x7d]\x7d\x7d\x7d, " ++
    "components: \x7bschemas: \x7b'': \x7bitems: \x7b\x7d\x7d, items: \x7b\x7d\x7d, " ++
    "parameters: \x7bP: \x7bname: p, in: query, schema: \x7b\x7d\x7d\x7d\x7d\x7d"

theorem load_located_crowded : ∃ d root,
    load crowded { allowParseErrors := true } =
      .ok (d, ["#/paths/~1a/parameters/1: cannot resolve 'Q'"]) ∧
    root? crowded = .ok root ∧ d.arena.locations.Nodup ∧
    d.Sited root ((Loader.document root).run {}).2 ∧
    d.arena.locations = ["#/components/schemas/", "#/components/schemas//items",
      "#/components/schemas/items", "#/components/parameters/P/schema"] ∧
    d.paths.map (fun item => (item.parameters.map (·.schema),
      item.operations.map fun op => op.parameters.map (·.schema))) =
        [([some 3], [[some 3]])] := by
  have hcheck : ((load crowded { allowParseErrors := true }).toOption.any fun x => decide (
      x.2 = ["#/paths/~1a/parameters/1: cannot resolve 'Q'"] ∧
      x.1.arena.locations = ["#/components/schemas/", "#/components/schemas//items",
        "#/components/schemas/items", "#/components/parameters/P/schema"] ∧
      x.1.paths.map (fun item => (item.parameters.map (·.schema),
        item.operations.map fun op => op.parameters.map (·.schema))) =
          [([some 3], [[some 3]])])) = true := by
    decide +kernel
  obtain ⟨⟨d, complaints⟩, hload, hrest⟩ := ok_of_any hcheck
  obtain ⟨rfl, hlocations, hpaths⟩ := of_decide_eq_true hrest
  obtain ⟨root, hroot, hnodup, hsited, -⟩ := load_located hload
  exact ⟨d, root, hload, hroot, hnodup, hsited, hlocations, hpaths⟩

end Document

end ApiModel
