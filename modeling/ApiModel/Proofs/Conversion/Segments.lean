import ApiModel.Proofs.Conversion.Converted
import ApiModel.Proofs.Names.Initial
import ApiModel.Proofs.Union.Exact

namespace ApiModel

/-- What a segment is written from: the name of a component, the path of a schema without an owner,
a property with the arrays and maps inside it, or the place of a member in its union. -/
inductive Source where
  | component (name : String)
  | path (steps : List String)
  | property (name : String) (elements : Nat)
  | member (number : Nat)

namespace Source

def segment : Source → String
  | .component name => Naming.typeName name
  | .path steps => Naming.typeName (" ".intercalate steps)
  | .property name elements => Naming.typeName name ++ Arena.itemNames elements
  | .member number => "OneOf" ++ toString number

def initial? : Source → Option Char
  | .component name => Naming.initial? name
  | .path steps => Naming.initial? (" ".intercalate steps)
  | .property name elements =>
      (Naming.initial? name).or (if elements = 0 then none else some 'I')
  | .member _ => some 'O'

def Occurs (d : Document) (o : Options) (r : Reachability) : Source → Prop
  | .component name => ∃ id kind, (name, id) ∈ d.schemas ∧ d.Recorded o id kind
  | .path steps => ∃ entry ∈ r.entries, entry.path = steps
  | .property name elements => ∃ owner property target, d.Recorded o owner .object ∧
      (name, property) ∈ d.arena.ownProperties owner ∧ d.arena.Within target property elements
  | .member number => ∃ union, d.Recorded o union .sealed ∧ number < (d.node union).oneOf.length

def Silent : Source → Prop
  | .component name => ∀ c ∈ name.toList, Text.isAlphanumeric c = false
  | .path steps => ∀ c ∈ (" ".intercalate steps).toList, Text.isAlphanumeric c = false
  | .property name elements =>
      elements = 0 ∧ ∀ c ∈ name.toList, Text.isAlphanumeric c = false
  | .member _ => False

def Writes (source : Source) (segment : String) : Prop :=
  segment = source.segment ∨
    ∃ number : Nat, 2 ≤ number ∧ segment = source.segment ++ toString number

end Source

def WellBegun (segment : String) : Prop :=
  ∃ c, segment.toList.head? = some c ∧ Text.isAsciiDigit c = false

theorem head?_toString (number : Nat) :
    ∃ c, (toString number).toList.head? = some c ∧ Text.isAsciiDigit c = true := by
  obtain ⟨c, rest, hdigits⟩ := List.exists_cons_of_ne_nil (Text.toList_toString_ne_nil number)
  have hmem : c ∈ (toString number).toList := hdigits ▸ List.mem_cons_self
  exact ⟨c, by rw [hdigits]; rfl, Text.isDigit_of_mem_toString hmem⟩

namespace Source

theorem head?_segment (source : Source) : source.segment.toList.head? = source.initial? := by
  cases source with
  | component name => exact Naming.head?_typeName name
  | path steps => exact Naming.head?_typeName _
  | property name elements =>
    rw [segment, String.toList_append, List.head?_append, Naming.head?_typeName, initial?]
    cases elements with
    | zero => rfl
    | succ elements => simp [Arena.itemNames, List.replicate_succ, String.join_cons]
  | member number => simp [segment, initial?]

theorem not_digit_of_initial? {source : Source} {c : Char} (h : source.initial? = some c) :
    Text.isAsciiDigit c = false := by
  cases source with
  | component name => exact Naming.not_digit_of_initial? h
  | path steps => exact Naming.not_digit_of_initial? h
  | property name elements =>
    rcases Option.or_eq_some_iff.1 h with h | ⟨_, h⟩
    · exact Naming.not_digit_of_initial? h
    · split at h <;> cases h
      rfl
  | member number =>
    cases h
    rfl

theorem Writes.head? {source : Source} {segment : String} (h : source.Writes segment) {c : Char}
    (hc : source.initial? = some c) : segment.toList.head? = some c := by
  rcases h with rfl | ⟨number, _, rfl⟩
  · rw [head?_segment, hc]
  · rw [String.toList_append, List.head?_append, head?_segment, hc, Option.some_or]

theorem initial?_eq_none {source : Source} : source.initial? = none ↔ source.Silent := by
  cases source with
  | component name => exact Naming.initial?_eq_none
  | path steps => exact Naming.initial?_eq_none
  | property name elements =>
    have hitem : (if elements = 0 then none else some 'I') = none ↔ elements = 0 := by simp
    rw [initial?, Silent, Option.or_eq_none_iff, Naming.initial?_eq_none, hitem, and_comm]
  | member number => exact iff_of_false (by simp [initial?]) id

theorem segment_of_silent {source : Source} (h : source.Silent) : source.segment = "" := by
  rw [← String.toList_eq_nil_iff, ← List.head?_eq_none_iff, head?_segment, initial?_eq_none]
  exact h

structure Spells (source : Source) (segment : String) : Prop where
  writes : source.Writes segment
  initial : ∀ c, source.initial? = some c → segment.toList.head? = some c
  silent : source.Silent → segment = "" ∨ ∃ number : Nat, 2 ≤ number ∧ segment = toString number
  wellBegun_iff : WellBegun segment ↔ ¬source.Silent

theorem Writes.spells {source : Source} {segment : String} (h : source.Writes segment) :
    source.Spells segment := by
  have hsilent : source.Silent →
      segment = "" ∨ ∃ number : Nat, 2 ≤ number ∧ segment = toString number := by
    intro hs
    rw [Writes, segment_of_silent hs] at h
    simpa using h
  refine ⟨h, fun c hc => h.head? hc, hsilent, ?_, fun hs => ?_⟩
  · rintro ⟨c, hhead, hdigit⟩ hs
    rcases hsilent hs with rfl | ⟨number, _, rfl⟩
    · cases hhead
    · obtain ⟨first, hfirst, hnumber⟩ := head?_toString number
      rw [hfirst, Option.some.injEq] at hhead
      rw [hhead, hdigit] at hnumber
      cases hnumber
  · obtain ⟨c, hc⟩ := Option.ne_none_iff_exists'.1 fun hnone => hs (initial?_eq_none.1 hnone)
    exact ⟨c, h.head? hc, not_digit_of_initial? hc⟩

end Source

def TypeNames.Sourced (d : Document) (o : Options) (r : Reachability) (n : TypeNames) : Prop :=
  ∀ segment ∈ n.segments, ∃ source : Source, source.Occurs d o r ∧ source.Writes segment

namespace ModelTree

variable {d : Document} {o : Options} {r : Reachability} {t t' : ModelTree}

theorem nameFor_child (registry : NameRegistry) (n : TypeNames) (source : Source) :
    ∃ segment, registry.nameFor (n.child source.segment) = n.child segment ∧
      source.Writes segment := by
  by_cases htaken : n.child source.segment ∈ registry.taken
  · obtain ⟨number, htwo, hname⟩ := NameRegistry.nameFor_of_mem htaken
    rw [TypeNames.numbered_child] at hname
    exact ⟨_, hname, .inr ⟨number, htwo, rfl⟩⟩
  · exact ⟨_, NameRegistry.nameFor_of_not_mem htaken, .inl rfl⟩

theorem sourced_place (h : ∀ l ∈ t.labels, l.names.Sourced d o r) {n : TypeNames} {source : Source}
    (hn : n.Sourced d o r) (hsource : source.Occurs d o r) (id : Nat) (kind : SchemaClass)
    (parent : Option Nat) :
    ∀ l ∈ (t.place id (n.child source.segment) kind parent).2.labels, l.names.Sourced d o r := by
  obtain ⟨segment, hname, hwrites⟩ := nameFor_child t.registry n source
  refine forall_mem_labels_place.2 ⟨h, ?_⟩
  simp only [hname, TypeNames.Sourced, TypeNames.segments_child]
  exact List.forall_mem_append.2 ⟨hn, List.forall_mem_singleton.2 ⟨source, hsource, hwrites⟩⟩

theorem Placement.sourced (hs : d.Searched o r) (hsound : t.Sound d o)
    (h : ∀ l ∈ t.labels, l.names.Sourced d o r) (hp : Placement d r t t') :
    ∀ l ∈ t'.labels, l.names.Sourced d o r := by
  have htop : (⟨[]⟩ : TypeNames).Sourced d o r := fun segment hsegment => nomatch hsegment
  cases hp with
  | note n => exact h
  | @component name id entry hmem hentry hnew =>
    have hsource : (Source.component name).Occurs d o r :=
      ⟨id, entry.kind, hmem, entry?_some hs hentry⟩
    exact sourced_place h htop hsource id entry.kind none
  | @owned entry p segment he hopen howner =>
    obtain ⟨u, hu, huk, name, property, elements, hproperty, hwithin, rfl⟩ := owner?_holds howner
    have hrec := hsound.recorded u (List.mem_of_getElem? hu)
    have hsource : (Source.property name elements).Occurs d o r :=
      ⟨u.id, property, entry.id, huk ▸ hrec, hproperty, hwithin⟩
    rw [namesAt_of_label hu]
    exact sourced_place h (h u (List.mem_of_getElem? hu)) hsource entry.id entry.kind (some p)
  | @promoted entry hfind _ _ =>
    have hsource : (Source.path entry.path).Occurs d o r :=
      ⟨entry, List.mem_of_find?_eq_some hfind, rfl⟩
    exact sourced_place h htop hsource entry.id entry.kind none
  | @member p number id u kind hu huk hmember href hnew hkind =>
    have hrec := hsound.recorded u (List.mem_of_getElem? hu)
    have hsource : (Source.member number).Occurs d o r :=
      ⟨u.id, huk ▸ hrec, (List.getElem?_eq_some_iff.1 hmember).1⟩
    exact sourced_place h (h u (List.mem_of_getElem? hu)) hsource id kind (some p)

theorem Placements.sourced (hs : d.Searched o r) (h : Placements d r {} t) :
    ∀ l ∈ t.labels, l.names.Sourced d o r := by
  induction h with
  | refl => simp [labels]
  | tail hrun hstep ih =>
    exact hstep.sourced hs ((Sound.empty d o).run (Placements.run hs hrun)) ih

end ModelTree

namespace Document

variable {d : Document} {o : Options}

theorem ok_of_placed {placed : Placed} (h : d.placed o = .ok placed) :
    ∃ r t, d.reachable o = .ok r ∧ ModelTree.build d r = .ok t ∧
      Unions.resolve d t = .ok placed := by
  obtain ⟨r, hr, hrest⟩ := ok_of_bind h
  obtain ⟨t, ht, hresolve⟩ := ok_of_bind hrest
  exact ⟨r, t, hr, ht, hresolve⟩

structure Spelled (d : Document) (o : Options) (r : Reachability) (m : SpecModel) : Prop where
  nonempty : ∀ s ∈ m.allSchemas, s.names.segments ≠ []
  sources : ∀ s ∈ m.allSchemas, ∀ segment ∈ s.names.segments,
    ∃ source : Source, source.Occurs d o r ∧ source.Spells segment
  wellBegun : (∀ source : Source, source.Occurs d o r → ¬source.Silent) →
    ∀ s ∈ m.allSchemas, ∀ segment ∈ s.names.segments, WellBegun segment

theorem convert_spelled {text : String} {l : Options} {complaints : List String}
    (hload : load text l = .ok (d, complaints)) {moment : Timestamp} {m : SpecModel}
    {notes : List Note} (hc : d.convert o moment = .ok (m, notes)) :
    ∃ r, d.reachable o = .ok r ∧ Spelled d o r m := by
  have hd := rooted_of_load hload
  obtain ⟨placed, hplaced, hconverted⟩ := converted_of_convert hload hc
  obtain ⟨r, t, hr, ht, hresolve⟩ := ok_of_placed hplaced
  have hs := (reachable_meets hd o).of_ok hr
  have hlabels := ((Unions.resolve_exact hload hr ht).1 placed hresolve).1.labels
  have hsources : ∀ s ∈ m.allSchemas, ∀ segment ∈ s.names.segments,
      ∃ source : Source, source.Occurs d o r ∧ source.Spells segment := by
    intro s hmem segment hsegment
    have hnames := hconverted.map_names.subset (List.mem_map.2 ⟨s, hmem, rfl⟩)
    obtain ⟨label, hlabel, heq⟩ := List.mem_map.1 hnames
    have hplacements := (ModelTree.build_placements hs).of_ok ht
    obtain ⟨source, hoccurs, hwrites⟩ :=
      hplacements.sourced hs label (hlabels ▸ hlabel) segment (heq ▸ hsegment)
    exact ⟨source, hoccurs, hwrites.spells⟩
  refine ⟨r, hr, fun s hmem => (hconverted.plain s hmem).ne_nil, hsources, ?_⟩
  intro hspeak s hmem segment hsegment
  obtain ⟨source, hoccurs, hspells⟩ := hsources s hmem segment hsegment
  exact hspells.wellBegun_iff.2 (hspeak source hoccurs)

def unspoken : String :=
  "\x7bopenapi: '3.1', info: \x7b\x7d, components: \x7bschemas: \x7b" ++
    "'---': \x7btype: object\x7d, '+++': \x7btype: object\x7d\x7d\x7d\x7d"

theorem unspoken_converts : ∃ d m notes, load unspoken {} = .ok (d, []) ∧
    d.convert keepAll ⟨0, false⟩ = .ok (m, notes) ∧
      m.allSchemas.map (·.names.segments) = [[""], ["2"]] := by
  have hcheck : ((load unspoken {}).toOption.any fun x => x.2.isEmpty &&
      (x.1.convert keepAll ⟨0, false⟩).toOption.any fun y =>
        decide (y.1.allSchemas.map (·.names.segments) = [[""], ["2"]])) = true := by
    decide +kernel
  obtain ⟨d, hload, hconverted⟩ := quiet_of_any hcheck
  obtain ⟨⟨m, notes⟩, hc, hmodel⟩ := ok_of_any hconverted
  exact ⟨d, m, notes, hload, hc, of_decide_eq_true hmodel⟩

theorem convert_spelled_unspoken : ∃ d m notes, load unspoken {} = .ok (d, []) ∧
    d.convert keepAll ⟨0, false⟩ = .ok (m, notes) ∧
      ∃ r, d.reachable keepAll = .ok r ∧ Spelled d keepAll r m := by
  obtain ⟨d, m, notes, hload, hc, _⟩ := unspoken_converts
  exact ⟨d, m, notes, hload, hc, convert_spelled hload hc⟩

theorem unspoken_begin_badly : ∃ d m notes, load unspoken {} = .ok (d, []) ∧
    d.convert keepAll ⟨0, false⟩ = .ok (m, notes) ∧
      (∃ s ∈ m.allSchemas, "" ∈ s.names.segments) ∧
        ∃ s ∈ m.allSchemas, "2" ∈ s.names.segments := by
  obtain ⟨d, m, notes, hload, hc, hsegments⟩ := unspoken_converts
  have hmem : ∀ segments ∈ [[""], ["2"]], ∃ s ∈ m.allSchemas, s.names.segments = segments := by
    intro segments h
    rw [← hsegments] at h
    exact List.mem_map.1 h
  obtain ⟨s, hs, hempty⟩ := hmem [""] (by simp)
  obtain ⟨s', hs', hnumber⟩ := hmem ["2"] (by simp)
  exact ⟨d, m, notes, hload, hc, ⟨s, hs, by simp [hempty]⟩, s', hs', by simp [hnumber]⟩

end Document

end ApiModel
