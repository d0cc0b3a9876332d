import ApiModel.Proofs.Listing
import ApiModel.Proofs.Outcome
import ApiModel.Security

namespace ApiModel

section

variable {α : Type} [DecidableEq α]

structure FirstOccurrences (l firsts : List α) : Prop where
  mem : ∀ a, a ∈ firsts ↔ a ∈ l
  order : firsts.Pairwise fun a b => l.idxOf a < l.idxOf b

theorem FirstOccurrences.nodup {l firsts : List α} (h : FirstOccurrences l firsts) :
    firsts.Nodup := by
  refine h.order.imp fun hlt heq => ?_
  rw [heq] at hlt
  exact Nat.lt_irrefl _ hlt

theorem firstOccurrences_ofList (l : List α) : FirstOccurrences l (OrderedSet.ofList l) := by
  refine ⟨fun a => OrderedSet.mem_ofList, ?_⟩
  induction l using List.reverseRecOn with
  | nil => exact .nil
  | append_singleton l a ih =>
    have hkept {b : α} (hb : b ∈ OrderedSet.ofList l) : (l ++ [a]).idxOf b = l.idxOf b :=
      List.idxOf_append_of_mem (OrderedSet.mem_ofList.1 hb)
    have hbefore : (OrderedSet.ofList l).Pairwise fun b c =>
        (l ++ [a]).idxOf b < (l ++ [a]).idxOf c := by
      refine ih.imp_of_mem fun hb hc hlt => ?_
      rw [hkept hb, hkept hc]
      exact hlt
    rw [ofList_append, OrderedSet.add]
    split
    · exact hbefore
    · next hnew =>
      refine List.pairwise_append.2 ⟨hbefore, List.pairwise_singleton _ _, ?_⟩
      intro b hb c hc
      obtain rfl := List.mem_singleton.1 hc
      have hlast : (l ++ [c]).idxOf c = l.length := by
        rw [List.idxOf_append_of_notMem fun h => hnew (OrderedSet.mem_ofList.2 h)]
        simp
      rw [hkept hb, hlast]
      exact List.idxOf_lt_length_of_mem (OrderedSet.mem_ofList.1 hb)

end

inductive SecuritySchemeObject.Supported (s : SecuritySchemeObject) : Prop
  | key {location : String} : s.kind = "apiKey" → s.location = some location →
      location ∈ ["header", "query", "cookie"] → Supported s
  | http {scheme : String} : s.kind = "http" → s.scheme = some scheme →
      String.ofList (scheme.toList.map Text.asciiLower) ∈ ["basic", "bearer"] → Supported s

theorem SecuritySchemeObject.supported_iff (s : SecuritySchemeObject) :
    s.supportedType?.isSome = true ↔ s.Supported := by
  constructor
  · intro h
    unfold supportedType? at h
    split at h
    · next hkind =>
      split at h
      · next hlocation => exact .key hkind hlocation (by simp)
      · next hlocation => exact .key hkind hlocation (by simp)
      · next hlocation => exact .key hkind hlocation (by simp)
      · cases h
    · next hkind =>
      split at h
      · next hscheme =>
        obtain ⟨scheme, hwritten, hlower⟩ := Option.map_eq_some_iff.1 hscheme
        exact .http hkind hwritten (by simp [hlower])
      · next hscheme =>
        obtain ⟨scheme, hwritten, hlower⟩ := Option.map_eq_some_iff.1 hscheme
        exact .http hkind hwritten (by simp [hlower])
      · cases h
    · cases h
  · rintro (⟨hkind, hlocation, hmem⟩ | ⟨hkind, hscheme, hmem⟩)
    · simp only [List.mem_cons, List.not_mem_nil, or_false] at hmem
      rcases hmem with rfl | rfl | rfl <;> simp [supportedType?, hkind, hlocation]
    · simp only [List.mem_cons, List.not_mem_nil, or_false] at hmem
      rcases hmem with hlower | hlower <;> simp [supportedType?, hkind, hscheme, hlower]

namespace Document

variable {d : Document} {path location name id : String} {op : Operation}

def effectiveRequirements (d : Document) (op : Operation) : List SecurityRequirement :=
  match op.security, d.security with
  | some own, _ => own
  | none, some shared => shared
  | none, none => []

theorem requirementsOf_eq (d : Document) (op : Operation) :
    d.requirementsOf op = d.effectiveRequirements op := by
  unfold requirementsOf effectiveRequirements
  cases op.security with
  | some own => rfl
  | none => cases d.security <;> rfl

def Supports (d : Document) (name : String) : Prop :=
  ∃ s, d.securitySchemes.get? name = some s ∧ s.Supported

inductive Refuses (d : Document) (location name : String) : ConversionError → Prop
  | undeclared : d.securitySchemes.get? name = none →
      Refuses d location name (.unresolved name location)
  | unsupported {s : SecuritySchemeObject} : d.securitySchemes.get? name = some s →
      ¬s.Supported → Refuses d location name (.unsupported location (.securityScheme name s.kind))

theorem Supports.not_refuses (h : d.Supports name) (e : ConversionError) :
    ¬d.Refuses location name e := by
  obtain ⟨s, hfound, hs⟩ := h
  rintro (hnone | ⟨hfound', hs'⟩)
  · rw [hfound] at hnone
    cases hnone
  · obtain rfl := Option.some.inj (hfound.symm.trans hfound')
    exact hs' hs

theorem Refuses.unique {e e' : ConversionError} (h : d.Refuses location name e)
    (h' : d.Refuses location name e') : e = e' := by
  rcases h with hnone | ⟨hfound, -⟩ <;> rcases h' with hnone' | ⟨hfound', -⟩
  · rfl
  · rw [hnone] at hfound'
    cases hfound'
  · rw [hnone'] at hfound
    cases hfound
  · obtain rfl := Option.some.inj (hfound.symm.trans hfound')
    rfl

theorem securityId_cases (d : Document) (location name : String) :
    Meets (d.securityId location name) (fun id => d.Supports name ∧ id = Naming.typeName name)
      (d.Refuses location name) := by
  unfold securityId
  split
  · next hfound => exact .undeclared hfound
  · next s hfound =>
    split
    · next hnone =>
      refine .unsupported hfound fun hs => ?_
      have hsome := s.supported_iff.2 hs
      rw [Option.isNone_iff_eq_none.1 hnone] at hsome
      cases hsome
    · next hsome =>
      refine ⟨⟨s, hfound, s.supported_iff.1 (Option.isSome_iff_ne_none.2 fun hnone => ?_)⟩, rfl⟩
      exact hsome (Option.isNone_iff_eq_none.2 hnone)

theorem securityId_ok_iff :
    d.securityId location name = .ok id ↔ d.Supports name ∧ id = Naming.typeName name := by
  have hcases := d.securityId_cases location name
  refine ⟨hcases.of_ok, ?_⟩
  rintro ⟨hs, rfl⟩
  cases hid : d.securityId location name with
  | ok id => rw [(hcases.of_ok hid).2]
  | error e => exact (hs.not_refuses e (hcases.of_error hid)).elim

theorem securityId_error_iff {e : ConversionError} :
    d.securityId location name = .error e ↔ d.Refuses location name e := by
  have hcases := d.securityId_cases location name
  refine ⟨hcases.of_error, fun h => ?_⟩
  cases hid : d.securityId location name with
  | ok id => exact ((hcases.of_ok hid).1.not_refuses e h).elim
  | error e' => rw [(hcases.of_error hid).unique h]

theorem Supports.exists_scheme (h : d.Supports name) :
    ∃ s ∈ d.supportedSchemes, s.rawName = name ∧ s.name = Naming.typeName name := by
  obtain ⟨s, hfound, hs⟩ := h
  obtain ⟨type, htype⟩ := Option.isSome_iff_exists.1 (s.supported_iff.2 hs)
  have hscheme : SecurityScheme.ofObject? name s = some
      { name := Naming.typeName name, rawName := name, type
        propertyName := if type.isKey then s.name else none, description := s.description } := by
    rw [SecurityScheme.ofObject?, htype]
    rfl
  exact ⟨_, List.mem_filterMap.2 ⟨(name, s), OrderedMap.mem_of_get? hfound, hscheme⟩, rfl, rfl⟩

def requiredSchemes (d : Document) (op : Operation) : List String :=
  requiredNames (d.requirementsOf op)

theorem requiredSchemes_firstOccurrences (d : Document) (op : Operation) :
    FirstOccurrences ((d.effectiveRequirements op).flatMap OrderedMap.keys)
      (d.requiredSchemes op) := by
  rw [requiredSchemes, requirementsOf_eq]
  exact firstOccurrences_ofList _

theorem securityIds_ok_iff {ids : List String} :
    d.securityIds path op = .ok ids ↔
      (∀ name ∈ d.requiredSchemes op, d.Supports name) ∧
        ids = (d.requiredSchemes op).map Naming.typeName := by
  unfold securityIds
  rw [mapM_ok_iff]
  change List.Forall₂ _ (d.requiredSchemes op) ids ↔ _
  generalize d.requiredSchemes op = names
  constructor
  · intro h
    induction h with
    | nil => exact ⟨nofun, rfl⟩
    | @cons name id names ids hid _ ih =>
      obtain ⟨hs, rfl⟩ := securityId_ok_iff.1 hid
      exact ⟨List.forall_mem_cons.2 ⟨hs, ih.1⟩, by rw [ih.2, List.map_cons]⟩
  · rintro ⟨hall, rfl⟩
    rw [List.forall₂_map_right_iff, List.forall₂_same]
    exact fun name hname => securityId_ok_iff.2 ⟨hall name hname, rfl⟩

theorem securityIds_error_iff {e : ConversionError} :
    d.securityIds path op = .error e ↔ ∃ before name after,
      d.requiredSchemes op = before ++ name :: after ∧ (∀ other ∈ before, d.Supports other) ∧
        d.Refuses (securityLocation path op) name e := by
  have hok (other : String) : (∃ id, d.securityId (securityLocation path op) other = .ok id) ↔
      d.Supports other := by
    simp only [securityId_ok_iff, exists_and_left, exists_eq, and_true]
  unfold securityIds
  rw [mapM_error_iff]
  simp only [hok, securityId_error_iff]
  rfl

theorem securityIds_exact (d : Document) (path : String) (op : Operation) :
    ∃ names, FirstOccurrences ((d.effectiveRequirements op).flatMap OrderedMap.keys) names ∧
      ((∃ ids, d.securityIds path op = .ok ids) ↔
        ∀ requirement ∈ d.effectiveRequirements op, ∀ name ∈ requirement.keys,
          d.Supports name) ∧
      (∀ e, d.securityIds path op = .error e ↔ ∃ before name after,
        names = before ++ name :: after ∧ (∀ other ∈ before, d.Supports other) ∧
          d.Refuses (securityLocation path op) name e) ∧
      ∀ ids, d.securityIds path op = .ok ids →
        List.Forall₂ (fun name id => ∃ s ∈ d.supportedSchemes, s.rawName = name ∧ s.name = id)
          names ids := by
  have hfirst := d.requiredSchemes_firstOccurrences op
  refine ⟨d.requiredSchemes op, hfirst, ?_, fun e => securityIds_error_iff, fun ids h => ?_⟩
  · simp only [securityIds_ok_iff, exists_and_left, exists_eq, and_true, hfirst.mem,
      List.mem_flatMap]
    exact ⟨fun h requirement hr name hname => h name ⟨requirement, hr, hname⟩,
      fun h name ⟨requirement, hr, hname⟩ => h requirement hr name hname⟩
  · obtain ⟨hall, rfl⟩ := securityIds_ok_iff.1 h
    rw [List.forall₂_map_right_iff, List.forall₂_same]
    exact fun name hname => (hall name hname).exists_scheme

end Document

end ApiModel
