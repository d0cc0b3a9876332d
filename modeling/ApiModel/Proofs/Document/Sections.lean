import ApiModel.Proofs.Document.Echoes
import Mathlib.Data.List.Induction
/-!
How a section of shared parts is loaded: entry by entry, each reference among the entries before it.
-/

namespace ApiModel

/-- How the entries of a section are read, loaded and stored, where they are stored, and which of
those written in place are well formed. -/
structure Shelf (α β : Type) where
  place : Section
  decode : Decoder (OrReference α)
  load : OrReference α → String → Loader (Option β)
  keep : String → β → Loader Unit
  parts : Loading → OrderedMap String β
  fits : α → Bool

namespace Shelf

variable {α β : Type}

/-- A name that the entries back: its entry is well formed, or refers to a name that the entries
before it back. -/
inductive Backed (h : Shelf α β) : List (String × Json) → String → Prop
  | inPlace {front back : List (String × Json)} {name : String} {j : Json} {part : α} :
      h.decode j = .ok (.inPlace part) → h.fits part = true →
        Backed h (front ++ (name, j) :: back) name
  | reference {front back : List (String × Json)} {name target other : String} {j : Json} :
      h.decode j = .ok (.reference target) → componentName? h.place target = some other →
        Backed h front other → Backed h (front ++ (name, j) :: back) name

/-- A name whose chain of references ends at a well formed entry, in whatever order the entries
stand. -/
inductive Grounded (h : Shelf α β) (es : List (String × Json)) : String → Prop
  | inPlace {name : String} {j : Json} {part : α} :
      (name, j) ∈ es → h.decode j = .ok (.inPlace part) → h.fits part = true → Grounded h es name
  | reference {name target other : String} {j : Json} :
      (name, j) ∈ es → h.decode j = .ok (.reference target) →
        componentName? h.place target = some other → Grounded h es other → Grounded h es name

def Ordered (h : Shelf α β) (es : List (String × Json)) : Prop :=
  ∀ front name j back target other, es = front ++ (name, j) :: back →
    h.decode j = .ok (.reference target) → componentName? h.place target = some other →
      other ∈ es.map (·.1) → other ∈ front.map (·.1)

def Settles (h : Shelf α β) (es : List (String × Json)) (j : Json) : Prop :=
  match h.decode j with
  | .ok (.inPlace part) => h.fits part = true
  | .ok (.reference target) => ∃ name, componentName? h.place target = some name ∧ h.Backed es name
  | .error _ => False

def store (h : Shelf α β) (e : String × Json) : Loader Unit := do
  match ← Loader.readThen h.decode h.load e.2 (h.place.location e.1) with
  | some part => h.keep e.1 part
  | none => return ()

def run (h : Shelf α β) (es : List (String × Json)) (l : Loading) : Loading :=
  es.foldl (fun l e => (h.store e l).2) l

def result (h : Shelf α β) (e : String × Json) (l : Loading) : Option β :=
  (Loader.readThen h.decode h.load e.2 (h.place.location e.1) l).1

def outcome (h : Shelf α β) (e : String × Json) (l : Loading) : List String × Bool :=
  ((h.store e l).2.complaints.drop l.complaints.length, (h.result e l).isSome)

def unresolved (h : Shelf α β) (name target : String) : String :=
  h.place.location name ++ ": cannot resolve '" ++ target ++ "'"

def said (h : Shelf α β) (es : List (String × Json)) (l : Loading) (e : String × Json) :
    List String :=
  match h.decode e.2 with
  | .ok (.reference target) =>
      if (h.run es l).knows h.place e.1 then [] else [h.unresolved e.1 target]
  | _ => (h.outcome e l).1

def Looks (h : Shelf α β) (e : String × Json) (s : Section) (name : String) : Prop :=
  s ≠ h.place ∨ ∃ target, h.decode e.2 = .ok (.reference target) ∧
    componentName? h.place target = some name

structure Lawful (h : Shelf α β) : Prop where
  keep_complaints : ∀ name part l, (h.keep name part l).2.complaints = l.complaints
  keep_parts : ∀ name part l, h.parts (h.keep name part l).2 = (h.parts l).insert name part
  keep_others : ∀ name part l s, s ≠ h.place → Loading.SameIn s (h.keep name part l).2 l
  knows_place : ∀ (l : Loading) name, l.knows h.place name = ((h.parts l).get? name).isSome
  parts_eq : ∀ l l', Loading.SameIn h.place l l' → h.parts l = h.parts l'
  load_reference : ∀ target location,
    h.load (.reference target) location = Loader.shared h.place h.parts target location
  load_inPlace : ∀ part location l, (h.load (.inPlace part) location l).1.isSome = h.fits part
  echo : ∀ asked r location, (∀ s, s ≠ h.place → ∀ name, asked s name) →
    Loader.Asks asked h.place r → Loader.Echo asked Loader.Both (h.load r location)
      (h.load r location)

variable {h : Shelf α β} {l l' : Loading} {e : String × Json} {es es' : List (String × Json)}
  {n : String}

theorem run_append (es es' : List (String × Json)) :
    h.run (es ++ es') l = h.run es' (h.run es l) := List.foldl_append

theorem run_push (es : List (String × Json)) (e : String × Json) (l : Loading) :
    h.run (es ++ [e]) l = (h.store e (h.run es l)).2 := run_append es [e]

theorem forM_store (es : List (String × Json)) (l : Loading) :
    (es.forM h.store l).2 = h.run es l := by
  induction es generalizing l with
  | nil => rfl
  | cons e es ih => exact ih _

theorem readThen_of_ok {j : Json} {r : OrReference α} (hr : h.decode j = .ok r)
    (location : String) : Loader.readThen h.decode h.load j location = h.load r location := by
  unfold Loader.readThen Loader.read
  rw [hr]
  rfl

theorem readThen_of_error {j : Json} {err : DecodeError} (hr : h.decode j = .error err)
    (location : String) : Loader.readThen h.decode h.load j location = (do
      Loader.complain (location ++ ": " ++ err.message)
      return none) := by
  unfold Loader.readThen Loader.read
  rw [hr]
  rfl

theorem store_eq (e : String × Json) (l : Loading) : (h.store e l).2 =
    match h.result e l with
    | some part =>
      (h.keep e.1 part (Loader.readThen h.decode h.load e.2 (h.place.location e.1) l).2).2
    | none => (Loader.readThen h.decode h.load e.2 (h.place.location e.1) l).2 := by
  unfold store result
  simp only [bind, StateT.bind]
  generalize Loader.readThen h.decode h.load e.2 (h.place.location e.1) l = x
  obtain ⟨part, l'⟩ := x
  cases part <;> rfl

namespace Backed

theorem append (hn : h.Backed es n) (back : List (String × Json)) : h.Backed (es ++ back) n := by
  cases hn with
  | inPlace hj hpart =>
    rw [List.append_assoc]
    exact .inPlace hj hpart
  | reference hj hother hfront =>
    rw [List.append_assoc]
    exact .reference hj hother hfront

theorem of_settles (hj : h.Settles es e.2) : h.Backed (es ++ [e]) e.1 := by
  unfold Settles at hj
  split at hj
  · next hpart => exact .inPlace hpart hj
  · next href =>
    obtain ⟨other, hother, hback⟩ := hj
    exact .reference href hother hback
  · exact hj.elim

theorem exists_split (hn : h.Backed es n) :
    ∃ front j back, es = front ++ (n, j) :: back ∧ h.Settles front j := by
  cases hn with
  | inPlace hj hpart =>
    refine ⟨_, _, _, rfl, ?_⟩
    rw [Settles, hj]
    exact hpart
  | reference hj hother hfront =>
    refine ⟨_, _, _, rfl, ?_⟩
    rw [Settles, hj]
    exact ⟨_, hother, hfront⟩

theorem mem_keys (hn : h.Backed es n) : n ∈ es.map (·.1) := by
  obtain ⟨front, j, back, rfl, -⟩ := hn.exists_split
  exact List.mem_map.2 ⟨(n, j), List.mem_append_right _ List.mem_cons_self, rfl⟩

end Backed

theorem backed_push : h.Backed (es ++ [e]) n ↔ h.Backed es n ∨ n = e.1 ∧ h.Settles es e.2 := by
  constructor
  · intro hn
    obtain ⟨front, j, back, hsplit, hj⟩ := hn.exists_split
    rcases List.eq_nil_or_concat back with rfl | ⟨back, last, rfl⟩
    · obtain ⟨rfl, hlast⟩ := List.append_inj' hsplit rfl
      obtain rfl := List.singleton_inj.1 hlast
      exact .inr ⟨rfl, hj⟩
    · rw [List.concat_eq_append, ← List.cons_append, ← List.append_assoc] at hsplit
      obtain ⟨rfl, -⟩ := List.append_inj' hsplit rfl
      refine .inl ?_
      have hfront := (Backed.of_settles (e := (n, j)) hj).append back
      rwa [List.append_assoc, List.singleton_append] at hfront
  · rintro (hn | ⟨rfl, hj⟩)
    · exact hn.append [e]
    · exact .of_settles hj

theorem Grounded.mono (hsub : es ⊆ es') (hn : h.Grounded es n) : h.Grounded es' n := by
  induction hn with
  | inPlace he hj hpart => exact .inPlace (hsub he) hj hpart
  | reference he hj hother _ ih => exact .reference (hsub he) hj hother ih

theorem Backed.grounded (hn : h.Backed es n) : h.Grounded es n := by
  induction hn with
  | inPlace hj hpart => exact .inPlace (List.mem_append_right _ List.mem_cons_self) hj hpart
  | reference hj hother _ ih =>
    exact .reference (List.mem_append_right _ List.mem_cons_self) hj hother
      (ih.mono (List.subset_append_left _ _))

theorem Backed.front {front back : List (String × Json)}
    (hnodup : ((front ++ back).map (·.1)).Nodup) (hn : h.Backed (front ++ back) n)
    (hmem : n ∈ front.map (·.1)) : h.Backed front n := by
  induction back using List.reverseRecOn with
  | nil => rwa [List.append_nil] at hn
  | append_singleton back e ih =>
    rw [← List.append_assoc] at hn hnodup
    have hlast := hnodup
    rw [List.map_append, List.nodup_append'] at hlast
    rcases backed_push.1 hn with hn | ⟨rfl, -⟩
    · exact ih hlast.1 hn
    · rw [List.map_append] at hlast
      exact (hlast.2.2 (List.mem_append_left _ hmem) (List.mem_singleton_self _)).elim

theorem Grounded.backed (hordered : h.Ordered es) (hnodup : (es.map (·.1)).Nodup)
    (hn : h.Grounded es n) : h.Backed es n := by
  induction hn with
  | inPlace he hj hpart =>
    obtain ⟨front, back, rfl⟩ := List.append_of_mem he
    exact .inPlace hj hpart
  | @reference name target other j he hj hother _ ih =>
    obtain ⟨front, back, rfl⟩ := List.append_of_mem he
    have hmem := hordered front name j back target other rfl hj hother ih.mem_keys
    exact .reference hj hother (ih.front hnodup hmem)

theorem backed_of_perm (hperm : es.Perm es')
    (hrefs : ∀ name j target, (name, j) ∈ es' → h.decode j = .ok (.reference target) →
      h.Backed es' name) (hn : h.Backed es n) : h.Backed es' n := by
  obtain ⟨front, j, back, rfl, hsettles⟩ := hn.exists_split
  have he : (n, j) ∈ es' := hperm.mem_iff.1 (List.mem_append_right _ List.mem_cons_self)
  unfold Settles at hsettles
  split at hsettles
  · next hpart =>
    obtain ⟨front', back', rfl⟩ := List.append_of_mem he
    exact .inPlace hpart hsettles
  · next href => exact hrefs n j _ he href
  · exact hsettles.elim

section

variable (hl : h.Lawful)

include hl

theorem echo_read (e : String × Json) :
    Loader.Echo (h.Looks e) Loader.Both
      (Loader.readThen h.decode h.load e.2 (h.place.location e.1))
      (Loader.readThen h.decode h.load e.2 (h.place.location e.1)) := by
  cases hr : h.decode e.2 with
  | error err =>
    rw [readThen_of_error hr]
    exact Loader.echo_complaint _ rfl
  | ok r =>
    rw [readThen_of_ok hr]
    refine hl.echo _ r _ (fun s hs name => .inl hs) fun target name href hname => .inr ?_
    exact ⟨target, hr.trans (congrArg _ href), hname⟩

theorem complaints_store (e : String × Json) (l : Loading) :
    (h.store e l).2.complaints = l.complaints ++ (h.outcome e l).1 ∧
      (h.store e l).2.complaints =
        (Loader.readThen h.decode h.load e.2 (h.place.location e.1) l).2.complaints := by
  obtain ⟨⟨more, hmore, _⟩, _⟩ := echo_read hl e l l fun _ _ _ => rfl
  have hstore : (h.store e l).2.complaints =
      (Loader.readThen h.decode h.load e.2 (h.place.location e.1) l).2.complaints := by
    rw [store_eq]
    cases h.result e l with
    | none => rfl
    | some part => exact hl.keep_complaints _ _ _
  refine ⟨?_, hstore⟩
  rw [outcome, hstore, hmore, List.drop_left]

theorem parts_store (e : String × Json) (l : Loading) : h.parts (h.store e l).2 =
    match h.result e l with
    | some part => (h.parts l).insert e.1 part
    | none => h.parts l := by
  obtain ⟨_, hsame, _⟩ := echo_read hl e l l fun _ _ _ => rfl
  rw [store_eq]
  cases h.result e l with
  | none => exact hl.parts_eq _ _ (hsame _)
  | some part => rw [hl.keep_parts, hl.parts_eq _ _ (hsame _)]

theorem get?_store_of_ne (l : Loading) (hn : n ≠ e.1) :
    (h.parts (h.store e l).2).get? n = (h.parts l).get? n := by
  rw [parts_store hl]
  cases h.result e l with
  | none => rfl
  | some part => exact OrderedMap.get?_insert_of_ne _ _ hn

theorem get?_store_self (l : Loading) :
    (h.parts (h.store e l).2).get? e.1 = (h.result e l).or ((h.parts l).get? e.1) := by
  rw [parts_store hl]
  cases h.result e l with
  | none => rfl
  | some part => exact OrderedMap.get?_insert_self _ _ _

theorem store_others {s : Section} (hs : s ≠ h.place) (e : String × Json) (l : Loading) :
    Loading.SameIn s (h.store e l).2 l := by
  obtain ⟨_, hsame, _⟩ := echo_read hl e l l fun _ _ _ => rfl
  rw [store_eq]
  cases h.result e l with
  | none => exact hsame s
  | some part => exact (hl.keep_others _ _ _ s hs).trans (hsame s)

theorem knows_store (e : String × Json) (l : Loading) (s : Section) (n : String) :
    (h.store e l).2.knows s n =
      (l.knows s n || (s == h.place && n == e.1 && (h.outcome e l).2)) := by
  by_cases hs : s = h.place
  · subst hs
    rw [hl.knows_place, hl.knows_place, beq_self_eq_true, Bool.true_and]
    by_cases hn : n = e.1
    · subst hn
      rw [get?_store_self hl, beq_self_eq_true, Bool.true_and, outcome]
      cases h.result e l <;> simp
    · rw [get?_store_of_ne hl l hn, beq_eq_false_iff_ne.2 hn, Bool.false_and, Bool.or_false]
  · rw [(store_others hl hs e l).knows, beq_eq_false_iff_ne.2 hs, Bool.false_and, Bool.false_and,
      Bool.or_false]

theorem outcome_congr (hagree : l.AgreeOn (h.Looks e) l') : h.outcome e l = h.outcome e l' := by
  obtain ⟨⟨more, hmore, hmore'⟩, _, _, hboth⟩ := echo_read hl e l l' hagree
  unfold outcome result
  rw [(complaints_store hl e l).2, (complaints_store hl e l').2, hmore, hmore', List.drop_left,
    List.drop_left]
  exact congrArg _ hboth

theorem result_reference {target : String} (hj : h.decode e.2 = .ok (.reference target))
    (l : Loading) : h.result e l = (componentName? h.place target).bind (h.parts l).get? := by
  rw [result, readThen_of_ok hj, hl.load_reference]
  exact (Loader.shared_spec _ _ _ _ _).1

theorem outcome_reference {target : String} (hj : h.decode e.2 = .ok (.reference target))
    (l : Loading) : (h.outcome e l).1 =
      if (h.outcome e l).2 then [] else [h.unresolved e.1 target] := by
  have hresult := result_reference hl hj l
  have hsaid := (complaints_store hl e l).2
  rw [readThen_of_ok hj, hl.load_reference, (Loader.shared_spec _ _ _ _ _).2, ← hresult] at hsaid
  rw [outcome, hsaid, List.drop_left]
  rfl

theorem outcome_settles (hknown : ∀ n, l.knows h.place n = true ↔ h.Backed es n) :
    (h.outcome e l).2 = true ↔ h.Settles es e.2 := by
  cases hj : h.decode e.2 with
  | error err =>
    rw [Settles, hj, outcome, result, readThen_of_error hj]
    exact iff_of_false Bool.false_ne_true id
  | ok r =>
    cases r with
    | inPlace part =>
      rw [Settles, hj, outcome, result, readThen_of_ok hj]
      dsimp only
      rw [hl.load_inPlace]
    | reference target =>
      rw [Settles, hj, outcome, result_reference hl hj]
      dsimp only
      cases hname : componentName? h.place target with
      | none => simp
      | some name =>
        rw [Option.bind_some, ← hl.knows_place, hknown]
        simp

theorem run_others {s : Section} (hs : s ≠ h.place) (es : List (String × Json)) (l : Loading) :
    Loading.SameIn s (h.run es l) l := by
  induction es using List.reverseRecOn with
  | nil => exact Loading.SameParts.refl l s
  | append_singleton es e ih =>
    rw [run_push]
    exact (store_others hl hs e _).trans ih

theorem get?_run_of_notMem (hn : n ∉ es.map (·.1)) (l : Loading) :
    (h.parts (h.run es l)).get? n = (h.parts l).get? n := by
  induction es using List.reverseRecOn with
  | nil => rfl
  | append_singleton es e ih =>
    rw [List.map_append, List.mem_append, not_or] at hn
    have hne : n ≠ e.1 := by simpa using hn.2
    rw [run_push, get?_store_of_ne hl _ hne, ih hn.1]

section

variable (hfresh : ∀ n, l.knows h.place n = false)

include hfresh

theorem knows_run_iff (n : String) : (h.run es l).knows h.place n = true ↔ h.Backed es n := by
  induction es using List.reverseRecOn generalizing n with
  | nil =>
    refine iff_of_false ?_ fun hn => ?_
    · rw [run, List.foldl_nil, hfresh]
      exact Bool.false_ne_true
    · cases hn.mem_keys
  | append_singleton es e ih =>
    rw [run_push, knows_store hl, backed_push, ← ih, ← outcome_settles hl ih, beq_self_eq_true,
      Bool.true_and, Bool.or_eq_true, Bool.and_eq_true, beq_iff_eq]

theorem get?_run_of_split {front back : List (String × Json)}
    (hnodup : ((front ++ e :: back).map (·.1)).Nodup) :
    (h.parts (h.run (front ++ e :: back) l)).get? e.1 = h.result e (h.run front l) := by
  rw [List.map_append, List.nodup_append'] at hnodup
  have hbefore : e.1 ∉ front.map (·.1) := fun he => hnodup.2.2 he List.mem_cons_self
  have hafter : e.1 ∉ back.map (·.1) := (List.nodup_cons.1 hnodup.2.1).1
  have hnone : (h.parts l).get? e.1 = none := by
    rw [← Option.isNone_iff_eq_none, ← Option.not_isSome, ← hl.knows_place, hfresh, Bool.not_false]
  rw [run_append, ← List.singleton_append, run_append, get?_run_of_notMem hl hafter, run,
    List.foldl_cons, List.foldl_nil, get?_store_self hl, get?_run_of_notMem hl hbefore, hnone,
    Option.or_none]

theorem get?_run_inPlace (hnodup : (es.map (·.1)).Nodup) {name : String} {j : Json} {part : α}
    (he : (name, j) ∈ es) (hj : h.decode j = .ok (.inPlace part)) :
    ∃ l₁, (h.parts (h.run es l)).get? name =
      (h.load (.inPlace part) (h.place.location name) l₁).1 := by
  obtain ⟨front, back, rfl⟩ := List.append_of_mem he
  refine ⟨h.run front l, ?_⟩
  rw [get?_run_of_split hl hfresh hnodup, result, readThen_of_ok hj]

theorem get?_run_reference (hnodup : (es.map (·.1)).Nodup) {name target other : String} {j : Json}
    (he : (name, j) ∈ es) (hj : h.decode j = .ok (.reference target))
    (hother : componentName? h.place target = some other) (hback : h.Backed es name) :
    (h.parts (h.run es l)).get? name = (h.parts (h.run es l)).get? other := by
  obtain ⟨front, j', back, rfl, hsettles⟩ := hback.exists_split
  obtain ⟨-, rfl⟩ := Prod.mk.inj (List.inj_on_of_nodup_map hnodup he
    (List.mem_append_right _ List.mem_cons_self) rfl)
  rw [Settles, hj] at hsettles
  obtain ⟨_, hother', hfront⟩ := hsettles
  obtain rfl := Option.some.inj (hother.symm.trans hother')
  have hlater : other ∉ ((name, j) :: back).map (·.1) := by
    rw [List.map_append, List.nodup_append'] at hnodup
    exact hnodup.2.2 hfront.mem_keys
  rw [get?_run_of_split hl hfresh hnodup, result_reference hl hj, hother, Option.bind_some,
    run_append, get?_run_of_notMem hl hlater]

theorem said_push (he : e.1 ∉ es.map (·.1)) :
    h.said (es ++ [e]) l e = (h.outcome e (h.run es l)).1 := by
  unfold said
  split
  · next target hj =>
    have hnew : (h.run es l).knows h.place e.1 = false := by
      rw [hl.knows_place, get?_run_of_notMem hl he, ← hl.knows_place, hfresh]
    rw [run_push, knows_store hl, hnew, beq_self_eq_true, beq_self_eq_true, Bool.false_or,
      Bool.true_and, Bool.true_and, outcome_reference hl hj]
  · next hj =>
    refine congrArg _ (outcome_congr hl fun s n hlooks => ?_)
    rcases hlooks with hs | ⟨target, href, _⟩
    · exact congrFun (run_others hl hs es l).knows.symm n
    · exact (hj target href).elim

theorem complaints_run (hnodup : (es.map (·.1)).Nodup) :
    (h.run es l).complaints = l.complaints ++ es.flatMap (h.said es l) := by
  induction es using List.reverseRecOn with
  | nil => simp [run]
  | append_singleton es e ih =>
    rw [List.map_append, List.nodup_append'] at hnodup
    have he : e.1 ∉ es.map (·.1) := fun he => hnodup.2.2 he (List.mem_singleton_self _)
    -- a later turn leaves what is known under the names before it
    have hfirst : es.flatMap (h.said (es ++ [e]) l) = es.flatMap (h.said es l) := by
      refine List.flatMap_congr fun e' he' => ?_
      have hne : e'.1 ≠ e.1 := fun heq => he (heq ▸ List.mem_map_of_mem he')
      unfold said
      rw [run_push, knows_store hl, beq_eq_false_iff_ne.2 hne, Bool.and_false, Bool.false_and,
        Bool.or_false]
    rw [run_push, (complaints_store hl e _).1, ih hnodup.1, List.flatMap_append, hfirst,
      List.flatMap_singleton, said_push hl hfresh he, List.append_assoc]

theorem backed_of_quiet (hnodup : (es.map (·.1)).Nodup) (hquiet : (h.run es l).complaints = [])
    {name target : String} {j : Json} (he : (name, j) ∈ es)
    (hj : h.decode j = .ok (.reference target)) : h.Backed es name := by
  rw [complaints_run hl hfresh hnodup, List.append_eq_nil_iff, List.flatMap_eq_nil_iff] at hquiet
  have hsaid := hquiet.2 _ he
  simp only [said, hj] at hsaid
  rw [← knows_run_iff hl hfresh]
  cases hknown : (h.run es l).knows h.place name with
  | true => rfl
  | false =>
    rw [hknown] at hsaid
    cases hsaid

theorem run_perm (hperm : es.Perm es') (hnodup : (es.map (·.1)).Nodup)
    (hback : ∀ n, h.Backed es n ↔ h.Backed es' n) (hknows : l.knows = l'.knows)
    (hcomplaints : l.complaints.Perm l'.complaints) :
    (h.run es l).knows = (h.run es' l').knows ∧
      (h.run es l).complaints.Perm (h.run es' l').complaints := by
  have hfresh' : ∀ n, l'.knows h.place n = false := fun n => by rw [← hknows, hfresh]
  have hnodup' : (es'.map (·.1)).Nodup := (hperm.map _).nodup_iff.1 hnodup
  have hsame : (h.run es l).knows = (h.run es' l').knows := by
    funext s n
    by_cases hs : s = h.place
    · subst hs
      rw [Bool.eq_iff_iff, knows_run_iff hl hfresh, knows_run_iff hl hfresh', hback]
    · rw [(run_others hl hs es l).knows, (run_others hl hs es' l').knows, hknows]
  have hsaid : h.said es l = h.said es' l' := by
    funext e
    unfold said
    rw [hsame]
    split
    · rfl
    · exact congrArg _ (outcome_congr hl fun s n _ => by rw [hknows])
  refine ⟨hsame, ?_⟩
  rw [complaints_run hl hfresh hnodup, complaints_run hl hfresh' hnodup', hsaid]
  exact hcomplaints.append (hperm.flatMap_right _)

end

end

end Shelf

end ApiModel
