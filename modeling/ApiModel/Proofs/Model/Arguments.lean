import ApiModel.Proofs.Model.Operations
import ApiModel.Proofs.Names.Field

namespace ApiModel

namespace SpecParameter

variable {ps : List SpecParameter}

def mayPrecede (p q : SpecParameter) : Bool := decide (p.location.priority ≤ q.location.priority)

theorem mayPrecede_trans (p q r : SpecParameter) (h : p.mayPrecede q = true)
    (h' : q.mayPrecede r = true) : p.mayPrecede r = true := by
  simp only [mayPrecede, decide_eq_true_eq] at h h' ⊢
  omega

theorem mayPrecede_total (p q : SpecParameter) : (p.mayPrecede q || q.mayPrecede p) = true := by
  simp only [mayPrecede, Bool.or_eq_true, decide_eq_true_eq]
  omega

theorem pairwise_mergeSort (ps : List SpecParameter) :
    (ps.mergeSort mayPrecede).Pairwise fun p q => p.mayPrecede q = true :=
  List.pairwise_mergeSort mayPrecede_trans mayPrecede_total ps

theorem filter_mergeSort (ps : List SpecParameter) (l : ParameterLocation) :
    (ps.mergeSort mayPrecede).filter (·.location == l) = ps.filter (·.location == l) := by
  have hperm := (List.mergeSort_perm ps mayPrecede).filter (·.location == l)
  have htied : (ps.filter (·.location == l)).Pairwise fun p q => p.mayPrecede q = true := by
    rw [List.pairwise_filter]
    refine List.pairwise_of_forall fun p q hp hq => ?_
    simp [mayPrecede, eq_of_beq hp, eq_of_beq hq]
  have hsub := List.sublist_mergeSort mayPrecede_trans mayPrecede_total htied List.filter_sublist
  have hkept := hsub.filter (·.location == l)
  simp only [List.filter_filter, Bool.and_self] at hkept
  exact (hkept.eq_of_length hperm.length_eq.symm).symm

theorem sorted_of_pairwise (h : ps.Pairwise fun p q => p.mayPrecede q = true) :
    sorted ps = ps := by
  induction ps with
  | nil => rfl
  | cons p ps ih =>
    obtain ⟨hp, hps⟩ := List.pairwise_cons.1 h
    have hmem : p.location ∈ ParameterLocation.all := by cases p.location <;> decide
    have hascending : ParameterLocation.all.Pairwise fun l l' => l.priority < l'.priority := by
      decide
    obtain ⟨before, after, hall⟩ := List.append_of_mem hmem
    rw [hall, List.pairwise_append, List.pairwise_cons] at hascending
    obtain ⟨-, ⟨hafter, -⟩, hbefore⟩ := hascending
    have hempty : ∀ qs ⊆ p :: ps, before.flatMap (fun l => qs.filter (·.location == l)) = [] := by
      intro qs hqs
      refine List.flatMap_eq_nil_iff.2 fun l hl => List.filter_eq_nil_iff.2 fun q hq hloc => ?_
      have hlt := hbefore l hl p.location List.mem_cons_self
      rw [← eq_of_beq hloc] at hlt
      rcases List.mem_cons.1 (hqs hq) with rfl | hq
      · omega
      · have hle := of_decide_eq_true (hp q hq)
        omega
    have hlater : after.flatMap (fun l => (p :: ps).filter (·.location == l)) =
        after.flatMap fun l => ps.filter (·.location == l) := by
      refine List.flatMap_congr fun l hl => List.filter_cons_of_neg fun hloc => ?_
      have hlt := hafter l hl
      rw [eq_of_beq hloc] at hlt
      omega
    have hown : (p :: ps).filter (·.location == p.location) =
        p :: ps.filter (·.location == p.location) := List.filter_cons_of_pos (beq_self_eq_true _)
    have ih := ih hps
    simp only [sorted, hall, List.flatMap_append, List.flatMap_cons, List.nil_append,
      hempty ps (List.subset_cons_self p ps), hempty (p :: ps) (List.Subset.refl _), hown,
      hlater, List.cons_append] at ih ⊢
    rw [ih]

theorem sorted_eq_mergeSort (ps : List SpecParameter) : sorted ps = ps.mergeSort mayPrecede := by
  rw [← sorted_of_pairwise (pairwise_mergeSort ps)]
  simp only [sorted, filter_mergeSort]

end SpecParameter

namespace Parameter

variable {shared own merged : List Parameter} {p q : Parameter}

def Overridden (own : List Parameter) (p : Parameter) : Prop :=
  ∃ q ∈ own, q.name = p.name ∧ q.location = p.location

instance (own : List Parameter) (p : Parameter) : Decidable (p.Overridden own) :=
  inferInstanceAs (Decidable (∃ q ∈ own, q.name = p.name ∧ q.location = p.location))

def uses (merged : List Parameter) (name : String) : Nat := merged.countP (·.name == name)

theorem any_overrides : own.any (·.overrides p) = decide (p.Overridden own) := by
  rw [Bool.eq_iff_iff, List.any_eq_true, decide_eq_true_iff]
  simp [overrides, Overridden]

theorem merge_eq (shared own : List Parameter) :
    merge shared own = shared.filter (fun p => ¬p.Overridden own) ++ own := by
  simp only [merge, any_overrides, decide_not]

theorem isAmbiguous_iff : p.isAmbiguous merged = true ↔ 1 < uses merged p.name := by
  rw [isAmbiguous, uses, decide_eq_true_eq]

theorem argumentName_eq (merged : List Parameter) (p : Parameter) :
    p.argumentName merged = if 1 < uses merged p.name
      then Naming.fieldName (p.location.name ++ "." ++ p.name) else Naming.fieldName p.name := by
  rw [argumentName]
  simp only [isAmbiguous_iff]
  split <;> rfl

theorem argumentName_located_iff :
    p.argumentName merged = Naming.fieldName (p.location.name ++ "." ++ p.name) ↔
      1 < uses merged p.name := by
  rw [argumentName_eq]
  split
  · next huses => exact ⟨fun _ => huses, fun _ => rfl⟩
  · next huses =>
    constructor
    · intro hname
      exact absurd hname.symm (Naming.fieldName_located_ne p.location p.name)
    · intro hmany
      exact absurd hmany huses

end Parameter

namespace Context

variable {c : Context} {merged shared own : List Parameter}

structure Represents (c : Context) (merged : List Parameter) (p : Parameter)
    (q : SpecParameter) : Prop where
  rawName : q.rawName = p.name
  location : q.location = p.location
  type : c.typeOrAny p.schema = .ok q.type
  nullable : q.nullable = true ↔ p.required ≠ some true
  description : q.description = p.description
  name : q.name = if 1 < Parameter.uses merged p.name
    then Naming.fieldName (p.location.name ++ "." ++ p.name) else Naming.fieldName p.name

theorem isNullable_iff {required : Option Bool} :
    isNullable required none = true ↔ required ≠ some true := by
  rcases required with _ | _ | _ <;> decide

theorem parameter_eq_ok {p : Parameter} {q : SpecParameter} :
    c.parameter merged p = .ok q ↔ c.Represents merged p q := by
  constructor
  · intro h
    obtain ⟨type, htype, h⟩ := ok_of_bind h
    cases h
    exact ⟨rfl, rfl, htype, isNullable_iff, rfl, Parameter.argumentName_eq merged p⟩
  · rintro ⟨hraw, hlocation, htype, hnullable, hdescription, hname⟩
    rw [← isNullable_iff, ← Bool.eq_iff_iff] at hnullable
    rw [← Parameter.argumentName_eq] at hname
    rw [parameter, htype]
    obtain ⟨name, rawName, location, type, nullable, description⟩ := q
    simp only at hraw hlocation hnullable hdescription hname
    subst hraw hlocation hnullable hdescription hname
    rfl

theorem parameter_eq_error {p : Parameter} {e : ConversionError} :
    c.parameter merged p = .error e ↔ c.typeOrAny p.schema = .error e := by
  rw [parameter]
  exact bind_pure_error_iff

theorem parameters_eq_ok {ps : List SpecParameter} :
    c.parameters shared own = .ok ps ↔ ∃ qs,
      List.Forall₂ (c.Represents (Parameter.merge shared own)) (Parameter.merge shared own) qs ∧
        ps = qs.mergeSort SpecParameter.mayPrecede := by
  simp only [← SpecParameter.sorted_eq_mergeSort]
  constructor
  · intro h
    obtain ⟨qs, hqs, h⟩ := ok_of_bind h
    cases h
    exact ⟨qs, (mapM_ok_iff.1 hqs).imp fun _ _ => parameter_eq_ok.1, rfl⟩
  · rintro ⟨qs, hqs, rfl⟩
    have hrun := mapM_ok_iff.2 (hqs.imp fun _ _ => parameter_eq_ok.2)
    simp only [parameters, hrun]
    rfl

theorem exists_parameter_eq_ok {p : Parameter} :
    (∃ q, c.parameter merged p = .ok q) ↔ ∃ type, c.typeOrAny p.schema = .ok type := by
  constructor
  · rintro ⟨q, hq⟩
    exact ⟨q.type, (parameter_eq_ok.1 hq).type⟩
  · rintro ⟨type, htype⟩
    rw [parameter, htype]
    exact ⟨_, rfl⟩

theorem parameters_eq_error {e : ConversionError} :
    c.parameters shared own = .error e ↔ ∃ before p after,
      Parameter.merge shared own = before ++ p :: after ∧
        (∀ q ∈ before, ∃ type, c.typeOrAny q.schema = .ok type) ∧
          c.typeOrAny p.schema = .error e := by
  have hrun : c.parameters shared own = .error e ↔
      (Parameter.merge shared own).mapM (c.parameter (Parameter.merge shared own)) = .error e := by
    rw [parameters]
    exact bind_pure_error_iff
  rw [hrun, mapM_error_iff]
  simp only [exists_parameter_eq_ok, parameter_eq_error]

structure Arranged (c : Context) (merged : List Parameter) (ps : List SpecParameter) : Prop where
  sorted : ∃ qs, List.Forall₂ (c.Represents merged) merged qs ∧
    ps = qs.mergeSort SpecParameter.mayPrecede
  ascending : ps.Pairwise fun p q => p.location.priority ≤ q.location.priority
  kept : ∀ l : ParameterLocation, List.Forall₂ (c.Represents merged)
    (merged.filter (·.location == l)) (ps.filter (·.location == l))
  located : ∀ q ∈ ps, q.name = Naming.fieldName (q.location.name ++ "." ++ q.rawName) ↔
    1 < Parameter.uses merged q.rawName

structure ParametersExact (c : Context) (shared own merged : List Parameter) : Prop where
  ok_iff : ∀ ps, c.parameters shared own = .ok ps ↔ c.Arranged merged ps
  error_iff : ∀ e, c.parameters shared own = .error e ↔ ∃ before p after,
    merged = before ++ p :: after ∧ (∀ q ∈ before, ∃ type, c.typeOrAny q.schema = .ok type) ∧
      c.typeOrAny p.schema = .error e
  fails_iff : (∃ e, c.parameters shared own = .error e) ↔
    ∃ p ∈ merged, ∃ e, c.typeOrAny p.schema = .error e

theorem Represents.located_iff {p : Parameter} {q : SpecParameter} (h : c.Represents merged p q) :
    q.name = Naming.fieldName (q.location.name ++ "." ++ q.rawName) ↔
      1 < Parameter.uses merged q.rawName := by
  rw [h.name, h.location, h.rawName, ← Parameter.argumentName_eq]
  exact Parameter.argumentName_located_iff

theorem arranged_of_forall₂ {qs : List SpecParameter}
    (h : List.Forall₂ (c.Represents merged) merged qs) :
    c.Arranged merged (qs.mergeSort SpecParameter.mayPrecede) := by
  refine ⟨⟨qs, h, rfl⟩, ?_, fun l => ?_, fun q hq => ?_⟩
  · exact (SpecParameter.pairwise_mergeSort qs).imp fun h => of_decide_eq_true h
  · rw [SpecParameter.filter_mergeSort]
    refine List.rel_filter (fun p q hpq => ?_) h
    simp only [hpq.location]
  · obtain ⟨p, -, hpq⟩ := exists_of_mem_right h (List.mem_mergeSort.1 hq)
    exact hpq.located_iff

theorem parameters_exact (c : Context) (shared own : List Parameter) :
    c.ParametersExact shared own (shared.filter (fun p => ¬p.Overridden own) ++ own) := by
  rw [← Parameter.merge_eq]
  refine ⟨fun ps => ?_, fun e => parameters_eq_error, ?_⟩
  · rw [parameters_eq_ok]
    constructor
    · rintro ⟨qs, hqs, rfl⟩
      exact arranged_of_forall₂ hqs
    · exact fun h => h.sorted
  · constructor
    · rintro ⟨e, he⟩
      obtain ⟨before, p, after, hmerged, -, hp⟩ := parameters_eq_error.1 he
      exact ⟨p, by simp [hmerged], e, hp⟩
    · rintro ⟨p, hp, e, he⟩
      cases hrun : c.parameters shared own with
      | error e' => exact ⟨e', rfl⟩
      | ok ps =>
        -- A run that succeeds has described every parameter, this one too.
        obtain ⟨qs, hqs, -⟩ := parameters_eq_ok.1 hrun
        obtain ⟨q, -, hpq⟩ := exists_of_mem_right hqs.flip hp
        rw [hpq.type] at he
        cases he

end Context

namespace Parameter

variable {merged shared own : List Parameter} {p q : Parameter}

def key (p : Parameter) : String × ParameterLocation := (p.name, p.location)

/-- Parameters of different names that come to one: neither name is used again and both are the
same field name, both are used again in one location and have the same capital form, or only the
first is and its location and capital form together are the other's field name. -/
inductive Clash (merged : List Parameter) (p q : Parameter) : Prop where
  | plain (names : p.name ≠ q.name) (first : uses merged p.name ≤ 1)
      (second : uses merged q.name ≤ 1)
      (meet : Naming.fieldName p.name = Naming.fieldName q.name)
  | located (names : p.name ≠ q.name) (first : 1 < uses merged p.name)
      (second : 1 < uses merged q.name) (location : p.location = q.location)
      (meet : Text.upperCamel p.name.toList = Text.upperCamel q.name.toList)
  | mixed (names : p.name ≠ q.name) (first : 1 < uses merged p.name)
      (second : uses merged q.name ≤ 1)
      (meet : p.location.label ++ Text.upperCamel p.name.toList =
        (Naming.fieldName q.name).toList)

theorem Clash.argumentName_eq (h : Clash merged p q) :
    p.argumentName merged = q.argumentName merged := by
  simp only [Parameter.argumentName_eq]
  cases h with
  | plain _ first second meet => rw [if_neg (by omega), if_neg (by omega), meet]
  | located _ first second location meet =>
    rw [if_pos first, if_pos second]
    exact Naming.fieldName_located_inj.2 ⟨location, meet⟩
  | mixed _ first second meet =>
    rw [if_pos first, if_neg (by omega), ← String.toList_inj, Naming.toList_fieldName_located, meet]

theorem clash_of_argumentName_eq (hnames : p.name ≠ q.name)
    (h : p.argumentName merged = q.argumentName merged) : Clash merged p q ∨ Clash merged q p := by
  simp only [Parameter.argumentName_eq] at h
  by_cases hp : 1 < uses merged p.name
  · by_cases hq : 1 < uses merged q.name
    · rw [if_pos hp, if_pos hq, Naming.fieldName_located_inj] at h
      exact .inl (.located hnames hp hq h.1 h.2)
    · rw [if_pos hp, if_neg hq, ← String.toList_inj, Naming.toList_fieldName_located] at h
      exact .inl (.mixed hnames hp (by omega) h)
  · by_cases hq : 1 < uses merged q.name
    · rw [if_neg hp, if_pos hq, ← String.toList_inj, Naming.toList_fieldName_located] at h
      exact .inr (.mixed hnames.symm hq (by omega) h.symm)
    · rw [if_neg hp, if_neg hq] at h
      exact .inl (.plain hnames (by omega) (by omega) h)

theorem one_lt_uses (hp : p ∈ merged) (hq : q ∈ merged) (hne : p ≠ q) (hname : p.name = q.name) :
    1 < uses merged p.name := by
  rw [uses, List.countP_eq_length_filter]
  have hp : p ∈ merged.filter (·.name == p.name) := by simp [hp]
  have hq : q ∈ merged.filter (·.name == p.name) := by simp [hq, hname]
  by_contra hfew
  match hfilter : merged.filter (·.name == p.name) with
  | [] => simp [hfilter] at hp
  | [x] =>
    rw [hfilter, List.mem_singleton] at hp hq
    exact hne (hp.trans hq.symm)
  | x :: y :: rest =>
    rw [hfilter] at hfew
    simp at hfew

theorem argumentName_ne_of_name_eq (hp : p ∈ merged) (hq : q ∈ merged) (hname : p.name = q.name)
    (hlocation : p.location ≠ q.location) : p.argumentName merged ≠ q.argumentName merged := by
  have hne : p ≠ q := by
    rintro rfl
    exact hlocation rfl
  have huses := one_lt_uses hp hq hne hname
  rw [argumentName_eq, argumentName_eq, ← hname, if_pos huses, if_pos huses]
  intro h
  exact hlocation (Naming.fieldName_located_inj.1 h).1

theorem nodup_keys_merge (hshared : (shared.map key).Nodup) (hown : (own.map key).Nodup) :
    ((shared.filter (fun p => ¬p.Overridden own) ++ own).map key).Nodup := by
  rw [List.map_append]
  refine (hshared.sublist (List.filter_sublist.map key)).append hown ?_
  intro k hk hk'
  obtain ⟨p, hp, rfl⟩ := List.mem_map.1 hk
  obtain ⟨q, hq, hkey⟩ := List.mem_map.1 hk'
  obtain ⟨hname, hlocation⟩ := Prod.mk.inj hkey
  have hfree := of_decide_eq_true (List.mem_filter.1 hp).2
  exact hfree ⟨q, hq, hname, hlocation⟩

end Parameter

structure NamesExact (merged : List Parameter) (ps : List SpecParameter) : Prop where
  apart : ps.Pairwise fun x y => x.rawName = y.rawName → x.name ≠ y.name
  nodup_iff : (ps.map (·.name)).Nodup ↔ ∀ p ∈ merged, ∀ q ∈ merged, ¬Parameter.Clash merged p q

theorem NamesExact.of_perm {merged : List Parameter} {ps qs : List SpecParameter}
    (h : NamesExact merged qs) (hperm : ps.Perm qs) : NamesExact merged ps := by
  refine ⟨(hperm.pairwise_iff ?_).2 h.apart, ?_⟩
  · intro x y hapart hraw hname
    exact hapart hraw.symm hname.symm
  · rw [(hperm.map _).nodup_iff, h.nodup_iff]

namespace Context

variable {c : Context} {merged shared own : List Parameter} {ps : List SpecParameter}

theorem map_names (h : List.Forall₂ (c.Represents merged) merged ps) :
    ps.map (fun q => (q.rawName, q.name)) =
      merged.map fun p => (p.name, p.argumentName merged) := by
  rw [← List.forall₂_eq_eq_eq, List.forall₂_map_left_iff, List.forall₂_map_right_iff]
  refine h.flip.imp fun q p hpq => ?_
  rw [hpq.rawName, hpq.name, Parameter.argumentName_eq]

theorem namesExact_of_forall₂ (hkeys : (merged.map Parameter.key).Nodup)
    (h : List.Forall₂ (c.Represents merged) merged ps) : NamesExact merged ps := by
  have hpairs := map_names h
  have hnames : ps.map (·.name) = merged.map (·.argumentName merged) := by
    have hsecond := congrArg (List.map Prod.snd) hpairs
    rwa [List.map_map, List.map_map] at hsecond
  have hnodup : merged.Nodup := hkeys.of_map
  constructor
  · have hapart : merged.Pairwise fun p q =>
        p.name = q.name → p.argumentName merged ≠ q.argumentName merged := by
      refine (List.pairwise_map.1 hkeys).imp_of_mem fun {p q} hp hq hkey hname => ?_
      refine Parameter.argumentName_ne_of_name_eq hp hq hname fun hlocation => hkey ?_
      rw [Parameter.key, Parameter.key, hname, hlocation]
    have hmapped : (merged.map fun p => (p.name, p.argumentName merged)).Pairwise
        fun x y => x.1 = y.1 → x.2 ≠ y.2 := List.pairwise_map.2 hapart
    rw [← hpairs] at hmapped
    exact List.pairwise_map.1 hmapped
  · rw [hnames, List.nodup_map_iff_inj_on hnodup]
    constructor
    · intro hinj p hp q hq hclash
      obtain rfl := hinj p hp q hq hclash.argumentName_eq
      cases hclash <;> contradiction
    · intro hfree p hp q hq heq
      by_contra hne
      by_cases hname : p.name = q.name
      · refine Parameter.argumentName_ne_of_name_eq hp hq hname (fun hlocation => hne ?_) heq
        exact List.inj_on_of_nodup_map hkeys hp hq (Prod.ext hname hlocation)
      · rcases Parameter.clash_of_argumentName_eq hname heq with hclash | hclash
        · exact hfree p hp q hq hclash
        · exact hfree q hq p hp hclash

theorem parameters_names (hshared : (shared.map Parameter.key).Nodup)
    (hown : (own.map Parameter.key).Nodup) (h : c.parameters shared own = .ok ps) :
    NamesExact (shared.filter (fun p => ¬p.Overridden own) ++ own) ps := by
  obtain ⟨qs, hqs, rfl⟩ := parameters_eq_ok.1 h
  rw [Parameter.merge_eq] at hqs
  exact (namesExact_of_forall₂ (Parameter.nodup_keys_merge hshared hown) hqs).of_perm
    (List.mergeSort_perm qs _)

def blank : Context := { document := .empty, options := {} }

theorem parameters_names_located : ∃ ps,
    blank.parameters [⟨"id", .path, some true, none, none⟩] [⟨"id", .query, none, none, none⟩] =
        .ok ps ∧
      NamesExact [⟨"id", .path, some true, none, none⟩, ⟨"id", .query, none, none, none⟩] ps := by
  have hcheck : ((blank.parameters [⟨"id", .path, some true, none, none⟩]
      [⟨"id", .query, none, none, none⟩]).toOption.any fun _ => true) = true := by decide +kernel
  obtain ⟨ps, hps, -⟩ := ok_of_any hcheck
  exact ⟨ps, hps, parameters_names (by decide) (by decide) hps⟩

def recased : List Parameter :=
  [⟨"a-b", .query, none, none, none⟩, ⟨"a_b", .header, none, none, none⟩]

theorem recased_meet : (recased.map Parameter.key).Nodup ∧
    ∃ ps, blank.parameters [] recased = .ok ps ∧ ¬(ps.map (·.name)).Nodup := by
  have hcheck : ((blank.parameters [] recased).toOption.any
      fun ps => decide (¬(ps.map (·.name)).Nodup)) = true := by decide +kernel
  obtain ⟨ps, hps, hmeet⟩ := ok_of_any hcheck
  exact ⟨by decide, ps, hps, of_decide_eq_true hmeet⟩

end Context

end ApiModel
