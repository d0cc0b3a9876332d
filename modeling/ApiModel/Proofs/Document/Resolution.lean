import ApiModel.Proofs.Document.Chains
import ApiModel.Proofs.Union.Tags

namespace ApiModel

open Relation (ReflTransGen TransGen)

namespace Document

variable {d : Document} {reference next last last' location : String} {id target : Nat}

def ComesTo (d : Document) (reference : String) (id : Nat) : Prop :=
  ∃ first, d.resolve? reference = some first ∧ ReflTransGen d.RefersTo first id

def ResolvesTo (d : Document) (reference : String) (id : Nat) : Prop :=
  d.ComesTo reference id ∧ (d.node id).reference = none

def LeavesWith (d : Document) (reference last : String) : Prop :=
  d.resolve? last = none ∧
    (last = reference ∨ ∃ id, d.ComesTo reference id ∧ (d.node id).reference = some last)

def Circles (d : Document) (reference : String) : Prop :=
  ∃ id, d.ComesTo reference id ∧ TransGen d.RefersTo id id

theorem comesTo_of_alias (hfound : d.resolve? reference = some id)
    (href : (d.node id).reference = some next) :
    d.ComesTo reference target ↔ target = id ∨ d.ComesTo next target := by
  constructor
  · rintro ⟨first, hfirst, hreach⟩
    obtain rfl := Option.some.inj (hfound.symm.trans hfirst)
    rcases hreach.cases_head with rfl | ⟨second, ⟨text, htext, hsecond⟩, hrest⟩
    · exact .inl rfl
    · obtain rfl := Option.some.inj (href.symm.trans htext)
      exact .inr ⟨second, hsecond, hrest⟩
  · rintro (rfl | ⟨second, hsecond, hrest⟩)
    · exact ⟨_, hfound, .refl⟩
    · exact ⟨id, hfound, .head ⟨next, href, hsecond⟩ hrest⟩

theorem comesTo_of_plain (hfound : d.resolve? reference = some id)
    (href : (d.node id).reference = none) : d.ComesTo reference target ↔ target = id := by
  constructor
  · rintro ⟨first, hfirst, hreach⟩
    obtain rfl := Option.some.inj (hfound.symm.trans hfirst)
    rcases hreach.cases_head with rfl | ⟨second, hsecond, _⟩
    · rfl
    · exact (stops_of_no_reference href second hsecond).elim
  · rintro rfl
    exact ⟨_, hfound, .refl⟩

theorem resolveChain_cases (d : Document) (reference location : String) :
    Meets (d.resolveChain reference location) (d.ResolvesTo reference) fun e =>
      (∃ last, d.LeavesWith reference last ∧ e = .unresolved last location) ∨
        d.Circles reference ∧ e = .unresolved reference (location ++ " (cyclic alias)") := by
  have hcases := linksFrom_cases (d := d) reference location [] reference (by simp)
  refine Meets.bind (hcases.mono (fun _ h => h) ?_) ?_
  · rintro e (⟨last, rfl, ⟨hnone, rfl⟩ | ⟨id, hid, k, hk, href, hnone⟩⟩ | ⟨rfl, id, hid, turn, ht⟩)
    · exact .inl ⟨_, ⟨hnone, .inl rfl⟩, rfl⟩
    · exact .inl ⟨last, ⟨hnone, .inr ⟨k, ⟨id, hid, hk⟩, href⟩⟩, rfl⟩
    · exact .inr ⟨⟨turn, ⟨id, hid, ht.1⟩, ht.2⟩, rfl⟩
  · rintro links - ⟨id, link, hid, hlast, hends⟩
    rw [hlast]
    exact ⟨⟨id, hid, hends.1⟩, hends.2⟩

section

variable {stop stop' : Nat}

theorem ComesTo.reaches (h : d.ComesTo reference stop) (hstop : d.Stops stop)
    (hid : d.ComesTo reference id) : ReflTransGen d.RefersTo id stop := by
  obtain ⟨first, hfirst, hreach⟩ := h
  obtain ⟨first', hfirst', hreach'⟩ := hid
  obtain rfl := Option.some.inj (hfirst.symm.trans hfirst')
  -- There is one chain only, so whatever it comes to lies before its end.
  exact reaches_stop refersTo_unique hstop hreach hreach'

theorem ComesTo.stop_unique (h : d.ComesTo reference stop) (hstop : d.Stops stop)
    (h' : d.ComesTo reference stop') (hstop' : d.Stops stop') : stop = stop' :=
  eq_of_stops refersTo_unique hstop hstop' (h.reaches hstop h') .refl

theorem ComesTo.not_circles (h : d.ComesTo reference stop) (hstop : d.Stops stop) :
    ¬d.Circles reference := by
  rintro ⟨turn, hturn, hcycle⟩
  exact acyclic_of_stop refersTo_unique hstop (h.reaches hstop hturn) hcycle

end

theorem ResolvesTo.unique (h : d.ResolvesTo reference id) (h' : d.ResolvesTo reference target) :
    id = target :=
  h.1.stop_unique (stops_of_no_reference h.2) h'.1 (stops_of_no_reference h'.2)

theorem ResolvesTo.not_circles (h : d.ResolvesTo reference id) : ¬d.Circles reference :=
  h.1.not_circles (stops_of_no_reference h.2)

theorem LeavesWith.cases (h : d.LeavesWith reference last) :
    d.resolve? reference = none ∧ last = reference ∨
      ∃ id, d.ComesTo reference id ∧ d.Stops id ∧ (d.node id).reference = some last := by
  obtain ⟨hnone, rfl | ⟨id, hid, href⟩⟩ := h
  · exact .inl ⟨hnone, rfl⟩
  · exact .inr ⟨id, hid, stops_of_dangling href hnone, href⟩

theorem ComesTo.resolve?_ne_none (h : d.ComesTo reference id) : d.resolve? reference ≠ none := by
  obtain ⟨first, hfirst, _⟩ := h
  rw [hfirst]
  exact Option.some_ne_none first

theorem LeavesWith.unique (h : d.LeavesWith reference last) (h' : d.LeavesWith reference last') :
    last = last' := by
  rcases h.cases with ⟨hnone, rfl⟩ | ⟨id, hid, hstop, href⟩ <;>
    rcases h'.cases with ⟨hnone', rfl⟩ | ⟨id', hid', hstop', href'⟩
  · rfl
  · exact (hid'.resolve?_ne_none hnone).elim
  · exact (hid.resolve?_ne_none hnone').elim
  · obtain rfl := hid.stop_unique hstop hid' hstop'
    exact Option.some.inj (href.symm.trans href')

theorem LeavesWith.not_circles (h : d.LeavesWith reference last) : ¬d.Circles reference := by
  rcases h.cases with ⟨hnone, _⟩ | ⟨id, hid, hstop, _⟩
  · rintro ⟨turn, hturn, _⟩
    exact hturn.resolve?_ne_none hnone
  · exact hid.not_circles hstop

theorem ResolvesTo.not_leavesWith (h : d.ResolvesTo reference id) :
    ¬d.LeavesWith reference last := by
  intro hleaves
  rcases hleaves.cases with ⟨hnone, _⟩ | ⟨id', hid', hstop', href'⟩
  · exact h.1.resolve?_ne_none hnone
  · obtain rfl := h.1.stop_unique (stops_of_no_reference h.2) hid' hstop'
    rw [h.2] at href'
    cases href'

theorem resolveChain_ok_iff :
    d.resolveChain reference location = .ok id ↔ d.ResolvesTo reference id := by
  have hcases := resolveChain_cases d reference location
  refine ⟨hcases.of_ok, fun h => ?_⟩
  cases hchain : d.resolveChain reference location with
  | ok target => rw [(hcases.of_ok hchain).unique h]
  | error e =>
    rcases hcases.of_error hchain with ⟨last, hleaves, _⟩ | ⟨hcircles, _⟩
    · exact (h.not_leavesWith hleaves).elim
    · exact (h.not_circles hcircles).elim

theorem resolveChain_error_iff {e : ConversionError} :
    d.resolveChain reference location = .error e ↔
      (∃ last, d.LeavesWith reference last ∧ e = .unresolved last location) ∨
        d.Circles reference ∧ e = .unresolved reference (location ++ " (cyclic alias)") := by
  have hcases := resolveChain_cases d reference location
  refine ⟨hcases.of_error, fun h => ?_⟩
  cases hchain : d.resolveChain reference location with
  | ok id =>
    have hid := hcases.of_ok hchain
    rcases h with ⟨last, hleaves, _⟩ | ⟨hcircles, _⟩
    · exact (hid.not_leavesWith hleaves).elim
    · exact (hid.not_circles hcircles).elim
  | error e' =>
    rcases h with ⟨last, hleaves, rfl⟩ | ⟨hcircles, rfl⟩ <;>
      rcases hcases.of_error hchain with ⟨last', hleaves', rfl⟩ | ⟨hcircles', rfl⟩
    · rw [hleaves.unique hleaves']
    · exact (hleaves.not_circles hcircles').elim
    · exact (hleaves'.not_circles hcircles).elim
    · rfl

end Document

namespace ModelTree

variable {t : ModelTree} {d : Document} {first reference location : String} {seen : List Nat}
  {links : List Document.Link} {names : TypeNames}

/-- Looks at the schemas of a chain in turn, with no memory of those that have been seen; nothing
comes of it where so many looks do not lead to an end. -/
def nameWithin (t : ModelTree) (d : Document) (location : String) :
    Nat → String → Option (Except ConversionError TypeNames)
  | 0, _ => none
  | looks + 1, current =>
      match d.resolve? current with
      | none => some (.error (.unresolved current location))
      | some id =>
          match t.names? id with
          | some names => some (.ok names)
          | none =>
              match (d.node id).reference with
              | some next => t.nameWithin d location looks next
              | none => some (.error (.broken (.violated (.unnamedReference current location))))

def nameAmong (t : ModelTree) (reference location : String) (links : List Document.Link) :
    Except ConversionError TypeNames :=
  match links.findSome? fun link => t.names? link.id with
  | some names => .ok names
  | none => .error (.broken (.violated (.unnamedReference
      ((links.getLast?.map (·.reference)).getD reference) location)))

theorem namedReference_eq (t : ModelTree) (d : Document) (reference location : String) :
    t.namedReference d reference location =
      (d.links reference location).bind (t.nameAmong reference location) := by
  unfold namedReference nameAmong
  rfl

theorem exists_last_of_linksFrom (h : d.linksFrom first location seen reference = .ok links) :
    ∃ link, links.getLast? = some link := by
  have hmeets := Document.linksFrom_meets (d := d) (P := fun _ => True) first location seen
    reference (fun _ _ => trivial) fun _ _ _ _ _ _ => trivial
  obtain ⟨link, hlink, _⟩ := (hmeets.of_ok h).last
  exact ⟨link, hlink⟩

theorem length_links_le (h : d.linksFrom first location seen reference = .ok links) :
    links.length ≤ (d.unseen seen).length := by
  -- Each link takes one schema out of those that have not been seen.
  fun_induction Document.linksFrom d first location seen reference generalizing links with
  | case1 => cases h
  | case2 => cases h
  | case3 seen current id found fresh href =>
    cases h
    have hlt := Document.unseen_lt (Document.resolve?_mem found) fresh
    exact Nat.lt_of_le_of_lt (Nat.zero_le _) hlt
  | case4 seen current id found fresh next href ih =>
    obtain ⟨rest, hrest, rfl⟩ := ok_of_map h
    have hlt := Document.unseen_lt (Document.resolve?_mem found) fresh
    exact Nat.lt_of_le_of_lt (ih hrest) hlt

theorem nameWithin_of_links (h : d.linksFrom first location seen reference = .ok links)
    (place : String) {looks : Nat} (hlooks : links.length ≤ looks) :
    t.nameWithin d place looks reference = some (t.nameAmong reference place links) := by
  fun_induction Document.linksFrom d first location seen reference generalizing links looks with
  | case1 => cases h
  | case2 => cases h
  | case3 seen current id found fresh href =>
    cases h
    obtain ⟨more, rfl⟩ := Nat.exists_eq_add_of_le' hlooks
    simp only [List.length_singleton, nameWithin, found, href, nameAmong, List.findSome?_singleton]
    cases t.names? id <;> rfl
  | case4 seen current id found fresh next href ih =>
    obtain ⟨rest, hrest, rfl⟩ := ok_of_map h
    obtain ⟨more, rfl⟩ := Nat.exists_eq_add_of_le' hlooks
    have hnext := ih hrest (Nat.le_add_left rest.length more)
    obtain ⟨last, hlast⟩ := exists_last_of_linksFrom hrest
    rw [List.length_cons, ← Nat.add_assoc, nameWithin]
    simp only [found, href, hnext, nameAmong, List.findSome?_cons, List.getLast?_cons, hlast]
    cases t.names? id <;> rfl

theorem mem_links_iff (h : d.linksFrom first location seen reference = .ok links) {id : Nat} :
    (∃ link ∈ links, link.id = id) ↔ d.ComesTo reference id := by
  fun_induction Document.linksFrom d first location seen reference generalizing links with
  | case1 => cases h
  | case2 => cases h
  | case3 seen current start found fresh href =>
    cases h
    rw [Document.comesTo_of_plain found href]
    simp [eq_comm]
  | case4 seen current start found fresh next href ih =>
    obtain ⟨rest, hrest, rfl⟩ := ok_of_map h
    rw [Document.comesTo_of_alias found href, ← ih hrest]
    simp [eq_comm]

theorem exists_named (h : FirstNamed d t reference names) :
    ∃ id, d.ComesTo reference id ∧ t.names? id = some names := by
  induction h with
  | @here reference id names hfound hnames => exact ⟨id, ⟨id, hfound, .refl⟩, hnames⟩
  | @along reference next id names hfound hnone href _ ih =>
    obtain ⟨target, htarget, hnames⟩ := ih
    exact ⟨target, (Document.comesTo_of_alias hfound href).2 (.inr htarget), hnames⟩

theorem links_of_resolveChain {target : Nat} (h : d.resolveChain reference location = .ok target) :
    ∃ links, d.links reference location = .ok links := by
  obtain ⟨links, hlinks, _⟩ := ok_of_bind h
  exact ⟨links, hlinks⟩

theorem nameAmong_ok_iff (h : d.links reference location = .ok links) :
    t.nameAmong reference location links = .ok names ↔ FirstNamed d t reference names := by
  unfold nameAmong
  cases hfind : links.findSome? fun link => t.names? link.id with
  | some found =>
    have hfirst := firstNamed_of_links h hfind
    constructor
    · rintro ⟨⟩
      exact hfirst
    · intro hnamed
      rw [hfirst.unique hnamed]
  | none =>
    constructor
    · rintro ⟨⟩
    · intro hnamed
      obtain ⟨id, hid, hnames⟩ := exists_named hnamed
      obtain ⟨link, hlink, rfl⟩ := (mem_links_iff h).2 hid
      rw [List.findSome?_eq_none_iff.1 hfind link hlink] at hnames
      cases hnames

theorem nameAmong_broken_iff (h : d.links reference location = .ok links) :
    (∃ last, t.nameAmong reference location links =
      .error (.broken (.violated (.unnamedReference last location)))) ↔
        ∀ id, d.ComesTo reference id → t.names? id = none := by
  unfold nameAmong
  cases hfind : links.findSome? fun link => t.names? link.id with
  | some names =>
    obtain ⟨id, hid, hnames⟩ := exists_named (firstNamed_of_links h hfind)
    constructor
    · rintro ⟨last, hlast⟩
      cases hlast
    · intro hall
      rw [hall id hid] at hnames
      cases hnames
  | none =>
    refine ⟨fun _ id hid => ?_, fun _ => ⟨_, rfl⟩⟩
    obtain ⟨link, hlink, rfl⟩ := (mem_links_iff h).2 hid
    exact List.findSome?_eq_none_iff.1 hfind link hlink

theorem nameAmong_ne_unresolved (text place : String) :
    t.nameAmong reference location links ≠ .error (.unresolved text place) := by
  intro h
  unfold nameAmong at h
  split at h <;> cases h

theorem namedReference_of_links (h : d.links reference location = .ok links) :
    t.namedReference d reference location = t.nameAmong reference location links := by
  rw [namedReference_eq, h]
  rfl

theorem namedReference_of_error {e : ConversionError}
    (h : d.resolveChain reference location = .error e) :
    t.namedReference d reference location = .error e := by
  have hlinks : d.links reference location = .error e := by
    cases hlinks : d.links reference location with
    | error e' =>
      unfold Document.resolveChain at h
      rw [hlinks] at h
      cases h
      rfl
    | ok links =>
      obtain ⟨last, hlast⟩ := exists_last_of_linksFrom hlinks
      unfold Document.resolveChain at h
      rw [hlinks] at h
      simp only [bind, Except.bind, hlast] at h
      cases h
  rw [namedReference_eq, hlinks]
  rfl

theorem references_resolve (t : ModelTree) (d : Document) (reference location : String) :
    (∀ id, d.resolveChain reference location = .ok id ↔ d.ResolvesTo reference id) ∧
    (∀ e, d.resolveChain reference location = .error e ↔
      (∃ last, d.LeavesWith reference last ∧ e = .unresolved last location) ∨
        d.Circles reference ∧ e = .unresolved reference (location ++ " (cyclic alias)")) ∧
    (∀ text place, t.namedReference d reference location = .error (.unresolved text place) ↔
      d.resolveChain reference location = .error (.unresolved text place)) ∧
    (∀ names, t.namedReference d reference location = .ok names ↔
      (∃ id, d.ResolvesTo reference id) ∧ FirstNamed d t reference names) ∧
    ((∃ last, t.namedReference d reference location =
        .error (.broken (.violated (.unnamedReference last location)))) ↔
      (∃ id, d.ResolvesTo reference id) ∧ ∀ id, d.ComesTo reference id → t.names? id = none) ∧
    ∀ id, d.ResolvesTo reference id → t.nameWithin d location d.schemas.length reference =
      some (t.namedReference d reference location) := by
  refine ⟨fun _ => Document.resolveChain_ok_iff, fun _ => Document.resolveChain_error_iff, ?_⟩
  cases hchain : d.resolveChain reference location with
  | error e =>
    have hnamed : t.namedReference d reference location = .error e := namedReference_of_error hchain
    have hnone : ¬∃ id, d.ResolvesTo reference id := by
      rintro ⟨id, hid⟩
      rw [Document.resolveChain_ok_iff.2 hid] at hchain
      cases hchain
    rw [hnamed]
    refine ⟨fun text place => by rw [Except.error.injEq, Except.error.injEq],
      fun names => ⟨nofun, fun h => (hnone h.1).elim⟩, ⟨?_, fun h => (hnone h.1).elim⟩,
      fun id hid => (hnone ⟨id, hid⟩).elim⟩
    rintro ⟨last, hlast⟩
    cases hlast
    rcases Document.resolveChain_error_iff.1 hchain with ⟨_, _, heq⟩ | ⟨_, heq⟩ <;> cases heq
  | ok target =>
    obtain ⟨links, hlinks⟩ := links_of_resolveChain hchain
    have hresolves : ∃ id, d.ResolvesTo reference id :=
      ⟨target, Document.resolveChain_ok_iff.1 hchain⟩
    rw [namedReference_of_links hlinks]
    refine ⟨fun text place => ⟨fun h => (nameAmong_ne_unresolved text place h).elim, nofun⟩,
      fun names => ?_, ?_, fun id _ => ?_⟩
    · rw [nameAmong_ok_iff hlinks, and_iff_right hresolves]
    · rw [nameAmong_broken_iff hlinks, and_iff_right hresolves]
    · refine nameWithin_of_links hlinks location ?_
      calc links.length ≤ (d.unseen []).length := length_links_le hlinks
        _ ≤ d.schemas.values.length := List.length_filter_le _ _
        _ = d.schemas.length := List.length_map _

end ModelTree

end ApiModel
