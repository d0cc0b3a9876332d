import ApiModel.Document.Properties
import Mathlib.Data.List.Lex
/-!
Routes through composed schemas: from a reference to its target and from a composition to its
members, numbered as they are merged. A schema has a first route among those that come through no
schema twice.
-/

namespace ApiModel

section

variable {p q : List Nat}

def Diverges (p q : List Nat) : Prop :=
  ∃ shared i j pRest qRest, i < j ∧ p = shared ++ i :: pRest ∧ q = shared ++ j :: qRest

theorem Diverges.append (h : Diverges p q) (r s : List Nat) : Diverges (p ++ r) (q ++ s) := by
  obtain ⟨shared, i, j, pRest, qRest, hlt, rfl, rfl⟩ := h
  exact ⟨shared, i, j, pRest ++ r, qRest ++ s, hlt, by simp, by simp⟩

theorem Diverges.cons (n : Nat) (h : Diverges p q) : Diverges (n :: p) (n :: q) := by
  obtain ⟨shared, i, j, pRest, qRest, hlt, rfl, rfl⟩ := h
  exact ⟨n :: shared, i, j, pRest, qRest, hlt, rfl, rfl⟩

theorem Diverges.lt (h : Diverges p q) : p < q := by
  obtain ⟨shared, i, j, pRest, qRest, hlt, rfl, rfl⟩ := h
  exact List.Lex.append_left _ (.rel hlt) shared

theorem prefix_or_diverges (h : p < q) : p <+: q ∨ Diverges p q := by
  induction h with
  | nil => exact .inl (List.nil_prefix)
  | @cons n p q _ ih => exact ih.imp (List.cons_prefix_cons.2 ⟨rfl, ·⟩) (.cons n)
  | @rel i p j q hlt => exact .inr ⟨[], i, j, p, q, hlt, rfl, rfl⟩

theorem empty_le (q : List Nat) : [] ≤ q := not_lt.1 fun h => nomatch h

theorem le_append (p q : List Nat) : p ≤ p ++ q := by
  induction p with
  | nil => exact empty_le q
  | cons i p ih => exact List.cons_le_cons i ih

end

namespace Document

def turns (d : Document) (id : Nat) : List (Nat × Bool) :=
  let n := d.node id
  match n.reference with
  | some reference => (d.resolve? reference).toList.map (·, true)
  | none => if n.oneOf.isEmpty then n.allOf.map (·, true) ++ n.anyOf.map (·, false) else []

def Declares (d : Document) (id : Nat) : Prop :=
  (d.node id).reference = none ∧ (d.node id).oneOf = []

instance (d : Document) (id : Nat) : Decidable (d.Declares id) :=
  inferInstanceAs (Decidable (_ ∧ _))

/-- The end of a route, given by the number of the turn at each schema, with whether all turns
pass on what is required. -/
def along (d : Document) (start : Nat) : List Nat → Option (Nat × Bool)
  | [] => some (start, true)
  | i :: path => (d.turns start)[i]?.bind fun turn =>
      (d.along turn.1 path).map fun e => (e.1, turn.2 && e.2)

def Simple (d : Document) (start : Nat) (path : List Nat) : Prop :=
  ∀ p q x c c', p <+: path → q <+: path → d.along start p = some (x, c) →
    d.along start q = some (x, c') → p = q

structure FirstRoute (d : Document) (start : Nat) (path : List Nat) (x : Nat) (counts : Bool) :
    Prop where
  leads : d.along start path = some (x, counts)
  simple : d.Simple start path
  least : ∀ other c, d.along start other = some (x, c) → d.Simple start other → path ≤ other

variable {d : Document} {start x id : Nat} {path p q : List Nat} {counts : Bool}

theorem mergeSteps_eq (d : Document) (id : Nat) (counts : Bool) : d.mergeSteps id counts =
    (d.turns id).map (fun turn => .enter turn.1 (counts && turn.2)) ++
      if d.Declares id then [.declare id counts] else [] := by
  cases href : (d.node id).reference with
  | some reference =>
    have hnot : ¬d.Declares id := fun h => nomatch href.symm.trans h.1
    simp [mergeSteps, turns, href, hnot]
  | none =>
    by_cases hone : (d.node id).oneOf = []
    · have hdeclares : d.Declares id := ⟨href, hone⟩
      simp [mergeSteps, turns, href, hone, hdeclares, Function.comp_def]
    · have hnot : ¬d.Declares id := fun h => hone h.2
      simp [mergeSteps, turns, href, hone, hnot]

theorem along_append (start : Nat) (p q : List Nat) : d.along start (p ++ q) =
    (d.along start p).bind fun e => (d.along e.1 q).map fun e' => (e'.1, e.2 && e'.2) := by
  induction p generalizing start with
  | nil => simp [along]
  | cons i p ih =>
    simp only [List.cons_append, along]
    cases (d.turns start)[i]? with
    | none => rfl
    | some turn =>
      simp only [Option.bind_some, ih]
      cases d.along turn.1 p with
      | none => rfl
      | some e => simp [Function.comp_def, Bool.and_assoc]

theorem along_turn {i : Nat} {turn : Nat × Bool} (h : d.along start path = some (x, counts))
    (hturn : (d.turns x)[i]? = some turn) :
    d.along start (path ++ [i]) = some (turn.1, counts && turn.2) := by
  simp [along_append, h, along, hturn]

theorem Simple.mono (h : d.Simple start q) (hp : p <+: q) : d.Simple start p :=
  fun a b x c c' ha hb => h a b x c c' (ha.trans hp) (hb.trans hp)

theorem FirstRoute.unique {c c' : Bool} (h : d.FirstRoute start p x c)
    (h' : d.FirstRoute start q x c') : p = q ∧ c = c' := by
  have hpath : p = q := le_antisymm (h.least q c' h'.leads h'.simple)
    (h'.least p c h.leads h.simple)
  subst hpath
  have hsame := h.leads.symm.trans h'.leads
  exact ⟨rfl, (Prod.mk.inj (Option.some.inj hsame)).2⟩

theorem exists_exit {known : List Nat} (hstart : start ∈ known)
    (h : d.along start path = some (x, counts)) (hx : x ∉ known) :
    ∃ before i after y c turn, path = before ++ i :: after ∧
      d.along start before = some (y, c) ∧ y ∈ known ∧ (d.turns y)[i]? = some turn ∧
        turn.1 ∉ known := by
  induction path generalizing start counts with
  | nil =>
    simp only [along, Option.some.injEq, Prod.mk.injEq] at h
    exact absurd (h.1 ▸ hstart) hx
  | cons i path ih =>
    simp only [along, Option.bind_eq_some_iff, Option.map_eq_some_iff] at h
    obtain ⟨turn, hturn, ⟨y, c⟩, hrest, heq⟩ := h
    obtain ⟨rfl, -⟩ := Prod.mk.inj heq
    by_cases hnext : turn.1 ∈ known
    · obtain ⟨before, j, after, z, c', turn', rfl, hbefore, hz, hturn', hout⟩ := ih hnext hrest
      refine ⟨i :: before, j, after, z, turn.2 && c', turn', rfl, ?_, hz, hturn', hout⟩
      simp [along, hturn, hbefore]
    · exact ⟨[], i, path, start, true, turn, rfl, rfl, hstart, hturn, hnext⟩

end Document

end ApiModel
