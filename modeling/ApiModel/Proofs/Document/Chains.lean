import ApiModel.Document.Reference
import ApiModel.Proofs.Outcome
import Mathlib.Logic.Relation

namespace ApiModel

open Relation (ReflTransGen TransGen)

section

variable {α : Type} {r : α → α → Prop} {a between stop : α} (hunique : Relator.RightUnique r)
  (hstop : ∀ b, ¬r stop b)

include hunique hstop

theorem reaches_stop (h : ReflTransGen r a stop) (hbetween : ReflTransGen r a between) :
    ReflTransGen r between stop := by
  rcases ReflTransGen.total_of_right_unique hunique h hbetween with hback | hon
  · rcases hback.cases_head with rfl | ⟨next, hnext, _⟩
    · exact .refl
    · exact (hstop next hnext).elim
  · exact hon

theorem acyclic_of_stop (h : ReflTransGen r a stop) : ¬TransGen r a a := by
  induction h using ReflTransGen.head_induction_on with
  | refl =>
    intro hcycle
    obtain ⟨next, hnext, _⟩ := TransGen.head'_iff.1 hcycle
    exact hstop next hnext
  | head hstep _ ih =>
    intro hcycle
    obtain ⟨next, hnext, hback⟩ := TransGen.head'_iff.1 hcycle
    obtain rfl := hunique hnext hstep
    exact ih (TransGen.tail'_iff.2 ⟨_, hback, hstep⟩)

theorem eq_of_stops {stop' : α} (hstop' : ∀ b, ¬r stop' b) (h : ReflTransGen r a stop)
    (h' : ReflTransGen r a stop') : stop = stop' := by
  rcases (reaches_stop hunique hstop' h' h).cases_head with heq | ⟨next, hnext, _⟩
  · exact heq
  · exact (hstop next hnext).elim

end

namespace Document

variable {d : Document} {id next target : Nat}

def RefersTo (d : Document) (id next : Nat) : Prop :=
  ∃ text, (d.node id).reference = some text ∧ d.resolve? text = some next

def EndsAt (d : Document) (id target : Nat) : Prop :=
  ReflTransGen d.RefersTo id target ∧ (d.node target).reference = none

def DanglesAt (d : Document) (id : Nat) (text : String) : Prop :=
  ∃ last, ReflTransGen d.RefersTo id last ∧ (d.node last).reference = some text ∧
    d.resolve? text = none

def LeadsIntoCycle (d : Document) (id : Nat) : Prop :=
  ∃ turn, ReflTransGen d.RefersTo id turn ∧ TransGen d.RefersTo turn turn

def Stops (d : Document) (id : Nat) : Prop := ∀ next, ¬d.RefersTo id next

theorem stops_of_no_reference (h : (d.node id).reference = none) : d.Stops id := by
  rintro next ⟨text, htext, _⟩
  rw [h] at htext
  cases htext

theorem stops_of_dangling {text : String} (h : (d.node id).reference = some text)
    (hnone : d.resolve? text = none) : d.Stops id := by
  rintro next ⟨text', htext, hnext⟩
  obtain rfl := Option.some.inj (h.symm.trans htext)
  rw [hnone] at hnext
  cases hnext

theorem refersTo_unique : Relator.RightUnique d.RefersTo := by
  intro id next next' h h'
  obtain ⟨text, htext, hnext⟩ := h
  obtain ⟨text', htext', hnext'⟩ := h'
  obtain rfl := Option.some.inj (htext.symm.trans htext')
  exact Option.some.inj (hnext.symm.trans hnext')

theorem not_leadsIntoCycle {stop : Nat} (hstop : d.Stops stop)
    (h : ReflTransGen d.RefersTo id stop) : ¬d.LeadsIntoCycle id := by
  rintro ⟨turn, hturn, hcycle⟩
  exact acyclic_of_stop refersTo_unique hstop (reaches_stop refersTo_unique hstop h hturn) hcycle

theorem EndsAt.not_leadsIntoCycle (h : d.EndsAt id target) : ¬d.LeadsIntoCycle id :=
  Document.not_leadsIntoCycle (stops_of_no_reference h.2) h.1

theorem EndsAt.not_danglesAt (h : d.EndsAt id target) (text : String) : ¬d.DanglesAt id text := by
  rintro ⟨last, hlast, htext, hnone⟩
  have heq := eq_of_stops refersTo_unique (stops_of_dangling htext hnone)
    (stops_of_no_reference h.2) hlast h.1
  rw [heq, h.2] at htext
  cases htext

theorem linksFrom_cases (first location : String) (seen : List Nat) (current : String)
    (hseen : ∀ s ∈ seen, ∀ id, d.resolve? current = some id → TransGen d.RefersTo s id) :
    Meets (d.linksFrom first location seen current)
      (fun links => ∃ id link, d.resolve? current = some id ∧ links.getLast? = some link ∧
        d.EndsAt id link.id)
      fun e => (∃ last, e = .unresolved last location ∧
          (d.resolve? current = none ∧ last = current ∨
            ∃ id, d.resolve? current = some id ∧ d.DanglesAt id last)) ∨
        (e = .unresolved first (location ++ " (cyclic alias)") ∧
          ∃ id, d.resolve? current = some id ∧ d.LeadsIntoCycle id) := by
  fun_induction linksFrom d first location seen current with
  | case1 seen current found => exact .inl ⟨current, rfl, .inl ⟨found, rfl⟩⟩
  | case2 seen current id found hmem =>
    exact .inr ⟨rfl, id, found, id, .refl, hseen id hmem id found⟩
  | case3 seen current id found fresh href =>
    exact ⟨id, ⟨current, id⟩, found, rfl, .refl, href⟩
  | case4 seen current id found fresh next href ih =>
    have hstep : ∀ i, d.resolve? next = some i → d.RefersTo id i := fun i hi => ⟨next, href, hi⟩
    refine Meets.map ((ih ?_).mono ?_ ?_)
    · intro s hs i hi
      rcases List.mem_cons.1 hs with rfl | hs
      · exact .single (hstep i hi)
      · exact (hseen s hs id found).tail (hstep i hi)
    · rintro links ⟨i, link, hi, hlast, hends⟩
      refine ⟨id, link, found, ?_, .head (hstep i hi) hends.1, hends.2⟩
      rw [List.getLast?_cons, hlast]
      rfl
    · rintro e (⟨last, rfl, ⟨hnone, rfl⟩ | ⟨i, hi, k, hk, hrest⟩⟩ |
        ⟨rfl, i, hi, turn, hturn, hcycle⟩)
      · exact .inl ⟨_, rfl, .inr ⟨id, found, id, .refl, href, hnone⟩⟩
      · exact .inl ⟨last, rfl, .inr ⟨id, found, k, .head (hstep i hi) hk, hrest⟩⟩
      · exact .inr ⟨rfl, id, found, turn, .head (hstep i hi) hturn, hcycle⟩

def chain (d : Document) (id : Nat) : Except ConversionError Nat :=
  match (d.node id).reference with
  | some text => d.resolveChain text (d.node id).location
  | none => .ok id

theorem chain_of_reference {text : String} (h : (d.node id).reference = some text) :
    d.chain id = d.resolveChain text (d.node id).location := by
  rw [chain, h]

theorem chain_cases (d : Document) (id : Nat) : Meets (d.chain id) (d.EndsAt id) fun e =>
    ∃ text, (d.node id).reference = some text ∧
      ((∃ last, e = .unresolved last (d.node id).location ∧ d.DanglesAt id last) ∨
        (e = .unresolved text ((d.node id).location ++ " (cyclic alias)") ∧
          d.LeadsIntoCycle id)) := by
  unfold chain
  split
  · next text href =>
    have hstep : ∀ i, d.resolve? text = some i → d.RefersTo id i := fun i hi => ⟨text, href, hi⟩
    have hcases := linksFrom_cases (d := d) text (d.node id).location [] text (by simp)
    refine Meets.bind (hcases.mono (fun _ h => h) fun e he => ⟨text, href, ?_⟩) ?_
    · rcases he with ⟨last, rfl, ⟨hnone, rfl⟩ | ⟨i, hi, k, hk, hrest⟩⟩ | ⟨rfl, i, hi, turn, ht⟩
      · exact .inl ⟨_, rfl, id, .refl, href, hnone⟩
      · exact .inl ⟨last, rfl, k, .head (hstep i hi) hk, hrest⟩
      · exact .inr ⟨rfl, turn, .head (hstep i hi) ht.1, ht.2⟩
    · rintro links - ⟨i, link, hi, hlast, hends⟩
      rw [hlast]
      exact ⟨.head (hstep i hi) hends.1, hends.2⟩
  · next href => exact ⟨.refl, href⟩

theorem chain_ok_iff : (∃ target, d.chain id = .ok target) ↔ ∃ target, d.EndsAt id target := by
  have hcases := chain_cases d id
  constructor
  · rintro ⟨target, h⟩
    exact ⟨target, hcases.of_ok h⟩
  · rintro ⟨target, h⟩
    cases hchain : d.chain id with
    | ok target => exact ⟨target, rfl⟩
    | error e =>
      obtain ⟨text, _, ⟨last, _, hdangles⟩ | ⟨_, hcycle⟩⟩ := hcases.of_error hchain
      · exact (h.not_danglesAt last hdangles).elim
      · exact (h.not_leadsIntoCycle hcycle).elim

theorem chain_of_leadsIntoCycle {text : String} (href : (d.node id).reference = some text)
    (h : d.LeadsIntoCycle id) : d.chain id =
      .error (.unresolved text ((d.node id).location ++ " (cyclic alias)")) := by
  have hcases := chain_cases d id
  cases hchain : d.chain id with
  | ok target => exact ((hcases.of_ok hchain).not_leadsIntoCycle h).elim
  | error e =>
    obtain ⟨text', htext, ⟨last, _, k, hk, hlast, hnone⟩ | ⟨rfl, _⟩⟩ := hcases.of_error hchain
    · exact (not_leadsIntoCycle (stops_of_dangling hlast hnone) hk h).elim
    · obtain rfl := Option.some.inj (href.symm.trans htext)
      rfl

theorem leadsIntoCycle_of_chain {text : String}
    (h : d.chain id = .error (.unresolved text ((d.node id).location ++ " (cyclic alias)"))) :
    d.LeadsIntoCycle id := by
  obtain ⟨_, _, ⟨last, heq, _⟩ | ⟨_, hcycle⟩⟩ := (chain_cases d id).of_error h
  · have hlength := congrArg String.length (ConversionError.unresolved.inj heq).2
    simp at hlength
  · exact hcycle

end Document

end ApiModel
