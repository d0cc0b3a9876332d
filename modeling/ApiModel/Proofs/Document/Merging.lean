import ApiModel.Proofs.Document.Loaded
import ApiModel.Proofs.Outcome
import ApiModel.Proofs.Document.Routes

namespace ApiModel

namespace Document

structure Arrival where
  id : Nat
  path : List Nat
  counts : Bool

def Arrival.onward (d : Document) (v : Arrival) : List Arrival :=
  (d.turns v.id).mapIdx fun i turn => ⟨turn.1, v.path ++ [i], v.counts && turn.2⟩

/-- Some schemas are visited and some pending, in the order of their routes. What a visited schema
leads to is visited or pending. -/
structure Trail (d : Document) (start : Nat) (visits pending : List Arrival) : Prop where
  leads : ∀ v ∈ visits ++ pending, d.along start v.path = some (v.id, v.counts)
  distinct : (visits.map (·.id)).Nodup
  through : ∀ v ∈ visits, ∀ p, p <+: v.path → ∃ w ∈ visits, w.path = p
  least : ∀ v ∈ visits, ∀ p c, d.along start p = some (v.id, c) → d.Simple start p → v.path ≤ p
  begun : start ∈ visits.map (·.id) ∨ ∃ v ∈ pending, v.path = []
  sorted : (pending.map (·.path)).Pairwise (· < ·)
  behind : ∀ v ∈ pending, v.path = [] ∨ ∃ w ∈ visits, ∃ i, v.path = w.path ++ [i]
  closed : ∀ v ∈ visits, ∀ i turn, (d.turns v.id)[i]? = some turn →
    turn.1 ∈ visits.map (·.id) ∨ ∃ w ∈ pending, w.path = v.path ++ [i]

variable {d : Document} {start : Nat} {visits pending : List Arrival} {x v : Arrival}

theorem mem_onward : v ∈ x.onward d ↔ ∃ i turn, (d.turns x.id)[i]? = some turn ∧
    v = ⟨turn.1, x.path ++ [i], x.counts && turn.2⟩ := by
  simp only [Arrival.onward, List.mem_iff_getElem?, List.getElem?_mapIdx, Option.map_eq_some_iff]
  exact exists_congr fun i => exists_congr fun turn => and_congr_right fun _ => eq_comm

theorem onward_sorted (d : Document) (x : Arrival) :
    ((x.onward d).map (·.path)).Pairwise (· < ·) := by
  rw [List.pairwise_map, Arrival.onward, List.pairwise_iff_getElem]
  intro i j hi hj hlt
  simp only [List.getElem_mapIdx]
  exact List.Lex.append_left _ (.rel hlt) x.path

namespace Trail

theorem first (d : Document) (start : Nat) : Trail d start [] [⟨start, [], true⟩] where
  leads := by simp [along]
  distinct := List.nodup_nil
  through := by simp
  least := by simp
  begun := by simp
  sorted := by simp
  behind := by simp
  closed := by simp

theorem visit_eq (h : Trail d start visits pending) {w : Arrival} (hv : v ∈ visits)
    (hw : w ∈ visits) (hid : v.id = w.id) : v = w := List.inj_on_of_nodup_map h.distinct hv hw hid

theorem simple (h : Trail d start visits pending) (hv : v ∈ visits) : d.Simple start v.path := by
  intro p q y c c' hp hq hy hy'
  obtain ⟨a, ha, rfl⟩ := h.through v hv p hp
  obtain ⟨b, hb, rfl⟩ := h.through v hv q hq
  have ha' := h.leads a (List.mem_append_left _ ha)
  have hb' := h.leads b (List.mem_append_left _ hb)
  rw [hy, Option.some.injEq, Prod.mk.injEq] at ha'
  rw [hy', Option.some.injEq, Prod.mk.injEq] at hb'
  rw [h.visit_eq ha hb (ha'.1.symm.trans hb'.1)]

theorem firstRoute (h : Trail d start visits pending) (hv : v ∈ visits) :
    d.FirstRoute start v.path v.id v.counts :=
  ⟨h.leads v (List.mem_append_left _ hv), h.simple hv, h.least v hv⟩

theorem head_le (h : Trail d start visits (x :: pending)) (hv : v ∈ x :: pending) :
    x.path ≤ v.path := by
  rcases List.mem_cons.1 hv with rfl | hv
  · exact le_refl _
  · exact le_of_lt ((List.pairwise_cons.1 h.sorted).1 _ (List.mem_map.2 ⟨v, hv, rfl⟩))

theorem begun_or_head (h : Trail d start visits (x :: pending)) :
    start ∈ visits.map (·.id) ∨ x.path = [] ∧ x.id = start := by
  refine h.begun.imp_right fun ⟨v, hv, hpath⟩ => ?_
  have hle := h.head_le hv
  rw [hpath] at hle
  have hx := le_antisymm hle (empty_le _)
  have hleads := h.leads x (by simp)
  rw [hx, along, Option.some.injEq, Prod.mk.injEq] at hleads
  exact ⟨hx, hleads.1.symm⟩

theorem le_of_leaving (h : Trail d start visits (x :: pending)) {p after : List Nat}
    {i y : Nat} {c : Bool} {turn : Nat × Bool} (hsimple : d.Simple start (p ++ i :: after))
    (hp : d.along start p = some (y, c)) (hy : y ∈ visits.map (·.id))
    (hturn : (d.turns y)[i]? = some turn) (hout : turn.1 ∉ visits.map (·.id)) :
    x.path ≤ p ++ i :: after := by
  obtain ⟨v, hv, rfl⟩ := List.mem_map.1 hy
  obtain ⟨w, hw, hpath⟩ := (h.closed v hv i turn hturn).resolve_left hout
  have hnext : x.path ≤ v.path ++ [i] := hpath ▸ h.head_le hw
  have hp' : p <+: p ++ i :: after := List.prefix_append _ _
  rcases lt_or_eq_of_le (h.least v hv p c hp (hsimple.mono hp')) with hlt | heq
  · rcases prefix_or_diverges hlt with hbegins | hdiverges
    · have hsame := hsimple _ _ _ _ _ (hbegins.trans hp') hp'
        (h.leads v (List.mem_append_left _ hv)) hp
      exact absurd (hsame ▸ hlt) (lt_irrefl _)
    · exact hnext.trans (le_of_lt (hdiverges.append [i] (i :: after)).lt)
  · have hshort : p ++ [i] ≤ p ++ i :: after := by
      have happend := le_append (p ++ [i]) after
      rwa [List.append_assoc, List.singleton_append] at happend
    exact hnext.trans (heq ▸ hshort)

theorem head_least (h : Trail d start visits (x :: pending)) (hx : x.id ∉ visits.map (·.id))
    {p : List Nat} {c : Bool} (hp : d.along start p = some (x.id, c)) (hsimple : d.Simple start p) :
    x.path ≤ p := by
  rcases h.begun_or_head with hstart | ⟨hpath, -⟩
  · obtain ⟨before, i, after, y, c', turn, rfl, hbefore, hy, hturn, hout⟩ :=
      exists_exit hstart hp hx
    exact h.le_of_leaving hsimple hbefore hy hturn hout
  · exact hpath ▸ empty_le p

theorem onward_lt (h : Trail d start visits (x :: pending)) (hx : x.id ∉ visits.map (·.id))
    (hv : v ∈ pending) (i : Nat) : x.path ++ [i] < v.path := by
  have hlt := (List.pairwise_cons.1 h.sorted).1 _ (List.mem_map.2 ⟨v, hv, rfl⟩)
  rcases prefix_or_diverges hlt with hbegins | hdiverges
  · rcases h.behind v (List.mem_cons_of_mem _ hv) with hnil | ⟨w, hw, j, hpath⟩
    · exact absurd (hnil ▸ hlt) (not_lt_of_ge (empty_le _))
    · have hshort : x.path <+: w.path := by
        rw [hpath] at hbegins hlt
        exact (List.prefix_concat_iff.1 hbegins).resolve_left (ne_of_lt hlt)
      obtain ⟨u, hu, hsame⟩ := h.through w hw _ hshort
      have hleads := h.leads u (List.mem_append_left _ hu)
      rw [hsame, h.leads x (by simp), Option.some.injEq, Prod.mk.injEq] at hleads
      exact absurd (List.mem_map.2 ⟨u, hu, hleads.1.symm⟩) hx
  · have happend := hdiverges.append [i] []
    rw [List.append_nil] at happend
    exact happend.lt

theorem closed_head (h : Trail d start visits (x :: pending)) (hv : v ∈ visits) {i : Nat}
    {turn : Nat × Bool} (hturn : (d.turns v.id)[i]? = some turn) :
    turn.1 ∈ visits.map (·.id) ∨ turn.1 = x.id ∨ ∃ w ∈ pending, w.path = v.path ++ [i] := by
  refine (h.closed v hv i turn hturn).imp_right fun ⟨w, hw, hpath⟩ => ?_
  rcases List.mem_cons.1 hw with rfl | hw
  · left
    have hleads := h.leads w (by simp)
    rw [hpath, along_turn (h.leads v (List.mem_append_left _ hv)) hturn, Option.some.injEq,
      Prod.mk.injEq] at hleads
    exact hleads.1
  · exact .inr ⟨w, hw, hpath⟩

theorem enter (h : Trail d start visits (x :: pending)) (hx : x.id ∉ visits.map (·.id)) :
    Trail d start (visits ++ [x]) (x.onward d ++ pending) where
  leads v hv := by
    have hxleads := h.leads x (by simp)
    rw [List.append_assoc, List.mem_append, List.mem_append, List.mem_append,
      List.mem_singleton] at hv
    rcases hv with hv | rfl | hv | hv
    · exact h.leads v (by simp [hv])
    · exact hxleads
    · obtain ⟨i, turn, hturn, rfl⟩ := mem_onward.1 hv
      exact along_turn hxleads hturn
    · exact h.leads v (by simp [hv])
  distinct := by
    rw [List.map_append]
    exact List.concat_eq_append ▸ h.distinct.concat hx
  through v hv p hp := by
    rcases List.mem_append.1 hv with hv | hv
    · obtain ⟨w, hw, hpath⟩ := h.through v hv p hp
      exact ⟨w, List.mem_append_left _ hw, hpath⟩
    · obtain rfl := List.mem_singleton.1 hv
      rcases h.behind v List.mem_cons_self with hnil | ⟨w, hw, i, hpath⟩
      · rw [hnil] at hp
        exact ⟨v, by simp, hnil.trans (List.prefix_nil.1 hp).symm⟩
      · rw [hpath, List.prefix_concat_iff] at hp
        rcases hp with rfl | hp
        · exact ⟨v, by simp, hpath⟩
        · obtain ⟨u, hu, hsame⟩ := h.through w hw p hp
          exact ⟨u, List.mem_append_left _ hu, hsame⟩
  least v hv p c hp hsimple := by
    rcases List.mem_append.1 hv with hv | hv
    · exact h.least v hv p c hp hsimple
    · obtain rfl := List.mem_singleton.1 hv
      exact h.head_least hx hp hsimple
  begun := by
    left
    rw [List.map_append, List.mem_append]
    exact h.begun_or_head.imp_right fun ⟨_, hid⟩ => by simp [hid]
  sorted := by
    rw [List.map_append, List.pairwise_append]
    refine ⟨onward_sorted d x, (List.pairwise_cons.1 h.sorted).2, fun p hp q hq => ?_⟩
    obtain ⟨v, hv, rfl⟩ := List.mem_map.1 hp
    obtain ⟨w, hw, rfl⟩ := List.mem_map.1 hq
    obtain ⟨i, turn, _, rfl⟩ := mem_onward.1 hv
    exact h.onward_lt hx hw i
  behind v hv := by
    rcases List.mem_append.1 hv with hv | hv
    · obtain ⟨i, turn, _, rfl⟩ := mem_onward.1 hv
      exact .inr ⟨x, by simp, i, rfl⟩
    · refine (h.behind v (List.mem_cons_of_mem _ hv)).imp_right fun ⟨w, hw, i, hpath⟩ => ?_
      exact ⟨w, List.mem_append_left _ hw, i, hpath⟩
  closed v hv i turn hturn := by
    rcases List.mem_append.1 hv with hv | hv
    · rcases h.closed_head hv hturn with hdone | hnow | ⟨w, hw, hpath⟩
      · exact .inl (by rw [List.map_append]; exact List.mem_append_left _ hdone)
      · exact .inl (by simp [hnow])
      · exact .inr ⟨w, List.mem_append_right _ hw, hpath⟩
    · obtain rfl := List.mem_singleton.1 hv
      exact .inr ⟨_, List.mem_append_left _ (mem_onward.2 ⟨i, turn, hturn, rfl⟩), rfl⟩

theorem skip (h : Trail d start visits (x :: pending)) (hx : x.id ∈ visits.map (·.id)) :
    Trail d start visits pending where
  leads v hv := h.leads v (by
    rcases List.mem_append.1 hv with hv | hv <;> simp [hv])
  distinct := h.distinct
  through := h.through
  least := h.least
  begun := .inl (h.begun_or_head.elim id fun ⟨_, hid⟩ => hid ▸ hx)
  sorted := (List.pairwise_cons.1 h.sorted).2
  behind v hv := h.behind v (List.mem_cons_of_mem _ hv)
  closed v hv i turn hturn := by
    rcases h.closed_head hv hturn with hdone | hnow | hlater
    · exact .inl hdone
    · exact .inl (hnow ▸ hx)
    · exact .inr hlater

theorem complete (h : Trail d start visits []) {path : List Nat} {y : Nat} {c : Bool}
    (hpath : d.along start path = some (y, c)) : y ∈ visits.map (·.id) := by
  have hstart : start ∈ visits.map (·.id) := h.begun.resolve_right (by simp)
  by_contra hy
  obtain ⟨_, i, _, z, _, turn, _, _, hz, hturn, hout⟩ := exists_exit hstart hpath hy
  obtain ⟨v, hv, rfl⟩ := List.mem_map.1 hz
  rcases h.closed v hv i turn hturn with hdone | ⟨w, hw, _⟩
  · exact hout hdone
  · cases hw

end Trail

def Entered? : MergeStep → Option (Nat × Bool)
  | .enter id counts => some (id, counts)
  | .declare _ _ => none

/-- How far merging is: which schemas are visited and pending, and which visited schemas have their
required names collected or are about to declare them. -/
structure Merging (d : Document) (visits pending : List Arrival) (steps : List MergeStep)
    (m : MergedProperties) : Prop where
  pending : steps.filterMap Entered? = pending.map fun v => (v.id, v.counts)
  visited : ∀ id, id ∈ m.visited ↔ id ∈ visits.map (·.id)
  required : ∀ name, (name ∈ m.required ∨
    ∃ id, .declare id true ∈ steps ∧ name ∈ (d.node id).required) ↔
      ∃ v ∈ visits, v.counts = true ∧ d.Declares v.id ∧ name ∈ (d.node v.id).required

variable {steps rest : List MergeStep} {m : MergedProperties} {id : Nat} {counts : Bool}

theorem turns_lt (hd : d.Rooted) {turn : Nat × Bool} (h : turn ∈ d.turns id) :
    turn.1 < d.arena.size := by
  unfold turns at h
  simp only at h
  split at h
  · next reference _ =>
    obtain ⟨target, htarget, rfl⟩ := List.mem_map.1 h
    obtain ⟨entry, hentry, rfl⟩ := List.mem_map.1 (resolve?_mem (Option.mem_toList.1 htarget))
    exact (hd.schemas entry hentry).1
  · split at h
    · have hmember : turn.1 ∈ (d.node id).merged := by
        rcases List.mem_append.1 h with h | h
        · obtain ⟨member, hmember, rfl⟩ := List.mem_map.1 h
          exact List.mem_append_left _ hmember
        · obtain ⟨member, hmember, rfl⟩ := List.mem_map.1 h
          exact List.mem_append_right _ hmember
      exact (d.arena.child_bounds (SchemaNode.mem_childIds_of_mem_merged hmember)).2
    · cases h

theorem filterMap_mergeSteps (d : Document) (x : Arrival) :
    (d.mergeSteps x.id x.counts).filterMap Entered? =
      (x.onward d).map fun v => (v.id, v.counts) := by
  have honward : (x.onward d).map (fun v => (v.id, v.counts)) =
      (d.turns x.id).map fun turn => (turn.1, x.counts && turn.2) := by
    refine List.ext_getElem? fun i => ?_
    simp only [Arrival.onward, List.getElem?_map, List.getElem?_mapIdx, Option.map_map]
    rfl
  rw [honward, mergeSteps_eq, List.filterMap_append, List.filterMap_map]
  have hown : List.filterMap Entered? (if d.Declares x.id then [.declare x.id x.counts] else []) =
      [] := by
    split <;> rfl
  rw [hown, List.append_nil, ← List.filterMap_eq_map]
  rfl

theorem declare_mem_mergeSteps {i : Nat} {c : Bool} :
    MergeStep.declare i c ∈ d.mergeSteps id counts ↔ i = id ∧ counts = c ∧ d.Declares id := by
  rw [mergeSteps_eq, List.mem_append]
  by_cases hdeclares : d.Declares id <;> simp [hdeclares, eq_comm]

namespace Merging

theorem declare (h : Merging d visits pending (.declare id counts :: rest) m) :
    Merging d visits pending rest (m.declare (d.node id) counts) where
  pending := h.pending
  visited := h.visited
  required name := by
    rw [← h.required name]
    cases counts with
    | true =>
      simp [MergedProperties.declare, OrderedSet.mem_addAll, or_and_right, exists_or, or_assoc]
    | false => simp [MergedProperties.declare]

theorem skip (h : Merging d visits (x :: pending) (.enter id counts :: rest) m) :
    Merging d visits pending rest m where
  pending := (List.cons.inj h.pending).2
  visited := h.visited
  required name := by
    rw [← h.required name]
    simp

theorem enter (h : Merging d visits (x :: pending) (.enter x.id x.counts :: rest) m) :
    Merging d (visits ++ [x]) (x.onward d ++ pending) (d.mergeSteps x.id x.counts ++ rest)
      { m with visited := x.id :: m.visited } where
  pending := by
    have hrest : rest.filterMap Entered? = pending.map fun v => (v.id, v.counts) :=
      (List.cons.inj h.pending).2
    rw [List.filterMap_append, filterMap_mergeSteps, hrest, List.map_append]
  visited i := by simp [h.visited i, or_comm]
  required name := by
    have hold := h.required name
    simp only [List.mem_cons, reduceCtorEq, false_or] at hold
    simp only [List.mem_append, declare_mem_mergeSteps, List.mem_singleton, or_and_right, exists_or,
      exists_eq_left, ← hold]
    constructor
    · rintro (h | ⟨i, ⟨rfl, hcounts, hdeclares⟩, hname⟩ | h)
      · exact .inl (.inl h)
      · exact .inr ⟨hcounts, hdeclares, hname⟩
      · exact .inl (.inr h)
    · rintro ((h | h) | ⟨hcounts, hdeclares, hname⟩)
      · exact .inl h
      · exact .inr (.inr h)
      · exact .inr (.inl ⟨_, ⟨rfl, hcounts, hdeclares⟩, hname⟩)

theorem head (h : Merging d visits pending (.enter id counts :: rest) m) :
    ∃ x later, pending = x :: later ∧ x.id = id ∧ x.counts = counts := by
  have hpending := h.pending
  cases pending with
  | nil => cases hpending
  | cons x later =>
    obtain ⟨hid, hcounts⟩ := Prod.mk.inj (List.cons.inj hpending).1
    exact ⟨x, later, rfl, hid.symm, hcounts.symm⟩

theorem done (h : Merging d visits pending [] m) : pending = [] := by
  have hpending := h.pending
  cases pending with
  | nil => rfl
  | cons x later => cases hpending

end Merging

theorem mergeAll_trail (hd : d.Rooted) (htrail : Trail d start visits pending)
    (hmerging : Merging d visits pending steps m)
    (hbounds : ∀ v ∈ pending, v.id < d.arena.size) :
    ∃ visits, Trail d start visits [] ∧
      (∀ x, x ∈ (d.mergeAll steps m).visited ↔ x ∈ visits.map (·.id)) ∧
      ∀ name, name ∈ (d.mergeAll steps m).required ↔
        ∃ v ∈ visits, v.counts = true ∧ d.Declares v.id ∧ name ∈ (d.node v.id).required := by
  fun_induction mergeAll d steps m generalizing visits pending with
  | case1 m =>
    obtain rfl := hmerging.done
    exact ⟨visits, htrail, hmerging.visited, fun name => by simpa using hmerging.required name⟩
  | case2 m id counts rest ih => exact ih htrail hmerging.declare hbounds
  | case3 m id counts rest hopen ih =>
    obtain ⟨x, later, rfl, rfl, rfl⟩ := hmerging.head
    have hx : x.id ∉ visits.map (·.id) := fun hmem => hopen.2 ((hmerging.visited x.id).2 hmem)
    refine ih (htrail.enter hx) hmerging.enter fun v hv => ?_
    rcases List.mem_append.1 hv with hv | hv
    · obtain ⟨i, turn, hturn, rfl⟩ := mem_onward.1 hv
      exact turns_lt hd (List.mem_of_getElem? hturn)
    · exact hbounds v (List.mem_cons_of_mem _ hv)
  | case4 m id counts rest hclosed ih =>
    obtain ⟨x, later, rfl, rfl, rfl⟩ := hmerging.head
    have hx : x.id ∈ visits.map (·.id) := by
      by_contra hout
      refine hclosed ⟨hbounds x List.mem_cons_self, fun hmem => ?_⟩
      exact hout ((hmerging.visited x.id).1 hmem)
    exact ih (htrail.skip hx) hmerging.skip fun v hv => hbounds v (List.mem_cons_of_mem _ hv)

theorem resolveProperties_trail (hd : d.Rooted) (hid : id < d.arena.size) :
    ∃ visits, Trail d id visits [] ∧
      (∀ x, x ∈ (d.resolveProperties id).visited ↔ x ∈ visits.map (·.id)) ∧
      ∀ name, name ∈ (d.resolveProperties id).required ↔
        ∃ v ∈ visits, v.counts = true ∧ d.Declares v.id ∧ name ∈ (d.node v.id).required :=
  mergeAll_trail hd (.first d id) ⟨rfl, by simp, by simp⟩ (by simpa using hid)

def Passes (d : Document) (id next : Nat) : Prop :=
  (∃ reference, (d.node id).reference = some reference ∧ d.resolve? reference = some next) ∨
    d.Declares id ∧ next ∈ (d.node id).allOf

def MustHave (d : Document) (id : Nat) (name : String) : Prop :=
  ∃ x, Relation.ReflTransGen d.Passes id x ∧ d.Declares x ∧ name ∈ (d.node x).required

/-- The required names of a schema are those of the schemas whose first route passes them on. All
of them belong there, and none is missing unless a schema that must count is first met over a
member that need not. -/
structure RequiredExact (d : Document) (id : Nat) : Prop where
  iff : ∀ name, name ∈ (d.resolveProperties id).required ↔
    ∃ x path, d.FirstRoute id path x true ∧ d.Declares x ∧ name ∈ (d.node x).required
  reached : ∀ x path c, d.along id path = some (x, c) → ∃ first c', d.FirstRoute id first x c'
  sound : ∀ name ∈ (d.resolveProperties id).required, d.MustHave id name
  complete : (∀ x path, Relation.ReflTransGen d.Passes id x → d.Declares x →
    ¬d.FirstRoute id path x false) →
      ∀ name, name ∈ (d.resolveProperties id).required ↔ d.MustHave id name

theorem mem_turns_iff_passes {next : Nat} : (next, true) ∈ d.turns id ↔ d.Passes id next := by
  cases href : (d.node id).reference with
  | some reference => simp [turns, Passes, Declares, href]
  | none => cases hone : (d.node id).oneOf <;> simp [turns, Passes, Declares, href, hone]

theorem passes_of_along {path : List Nat} {y : Nat} (h : d.along start path = some (y, true)) :
    Relation.ReflTransGen d.Passes start y := by
  induction path generalizing start with
  | nil =>
    simp only [along, Option.some.injEq, Prod.mk.injEq, and_true] at h
    exact h ▸ .refl
  | cons i path ih =>
    simp only [along, Option.bind_eq_some_iff, Option.map_eq_some_iff] at h
    obtain ⟨⟨next, c⟩, hturn, ⟨z, c'⟩, hrest, heq⟩ := h
    obtain ⟨rfl, hboth⟩ := Prod.mk.inj heq
    obtain ⟨rfl, rfl⟩ := Bool.and_eq_true_iff.1 hboth
    exact .head (mem_turns_iff_passes.1 (List.mem_of_getElem? hturn)) (ih hrest)

theorem exists_along {y : Nat} (h : Relation.ReflTransGen d.Passes start y) :
    ∃ path, d.along start path = some (y, true) := by
  induction h with
  | refl => exact ⟨[], rfl⟩
  | tail _ hpass ih =>
    obtain ⟨path, hpath⟩ := ih
    obtain ⟨i, hi⟩ := List.getElem?_of_mem (mem_turns_iff_passes.2 hpass)
    exact ⟨path ++ [i], along_turn hpath hi⟩

theorem requiredExact (hd : d.Rooted) (hid : id < d.arena.size) : RequiredExact d id := by
  obtain ⟨visits, htrail, -, hrequired⟩ := resolveProperties_trail hd hid
  have hreached : ∀ x path c, d.along id path = some (x, c) →
      ∃ v ∈ visits, v.id = x ∧ d.FirstRoute id v.path x v.counts := by
    intro x path c hpath
    obtain ⟨v, hv, rfl⟩ := List.mem_map.1 (htrail.complete hpath)
    exact ⟨v, hv, rfl, htrail.firstRoute hv⟩
  have hiff : ∀ name, name ∈ (d.resolveProperties id).required ↔
      ∃ x path, d.FirstRoute id path x true ∧ d.Declares x ∧ name ∈ (d.node x).required := by
    intro name
    rw [hrequired name]
    constructor
    · rintro ⟨v, hv, hcounts, hdeclares, hname⟩
      exact ⟨v.id, v.path, hcounts ▸ htrail.firstRoute hv, hdeclares, hname⟩
    · rintro ⟨x, path, hfirst, hdeclares, hname⟩
      obtain ⟨v, hv, rfl, hroute⟩ := hreached x path true hfirst.leads
      exact ⟨v, hv, (hroute.unique hfirst).2, hdeclares, hname⟩
  have hsound : ∀ name ∈ (d.resolveProperties id).required, d.MustHave id name := by
    intro name hname
    obtain ⟨x, path, hfirst, hdeclares, hname⟩ := (hiff name).1 hname
    exact ⟨x, passes_of_along hfirst.leads, hdeclares, hname⟩
  refine ⟨hiff, fun x path c hpath => ?_, hsound, fun hmet name => ⟨hsound name, ?_⟩⟩
  · obtain ⟨v, _, _, hroute⟩ := hreached x path c hpath
    exact ⟨v.path, v.counts, hroute⟩
  · rintro ⟨x, hpass, hdeclares, hname⟩
    obtain ⟨path, hpath⟩ := exists_along hpass
    obtain ⟨v, _, rfl, hroute⟩ := hreached x path true hpath
    have hcounts : v.counts = true := by
      by_contra hnot
      rw [Bool.not_eq_true] at hnot
      exact hmet v.id v.path hpass hdeclares (hnot ▸ hroute)
    exact (hiff name).2 ⟨v.id, v.path, hcounts ▸ hroute, hdeclares, hname⟩

theorem resolveProperties_required {text : String} {o : Options} {complaints : List String}
    (hload : load text o = .ok (d, complaints)) (hid : id < d.arena.size) : RequiredExact d id :=
  requiredExact (rooted_of_load hload) hid

def weakFirst : String :=
  "\x7bopenapi: '3.1', info: \x7b\x7d, components: \x7bschemas: \x7b" ++
    "Base: \x7brequired: [id]\x7d, " ++
    "Pet: \x7ballOf: [\x7banyOf: [\x7b$ref: '#/components/schemas/Base'\x7d]\x7d, " ++
      "\x7b$ref: '#/components/schemas/Base'\x7d]\x7d\x7d\x7d\x7d"

theorem weakFirst_merges : ∃ d, load weakFirst {} = .ok (d, []) ∧ 1 < d.arena.size ∧
    (d.resolveProperties 1).required = [] ∧ d.MustHave 1 "id" := by
  have hcheck : ((load weakFirst {}).toOption.any fun x => x.2.isEmpty && decide (
      1 < x.1.arena.size ∧ (x.1.resolveProperties 1).required = [] ∧ (4, true) ∈ x.1.turns 1 ∧
        (0, true) ∈ x.1.turns 4 ∧ x.1.Declares 0 ∧ "id" ∈ (x.1.node 0).required)) = true := by
    decide +kernel
  obtain ⟨d, hload, hfacts⟩ := quiet_of_any hcheck
  obtain ⟨hsize, hmerged, hpet, halias, hdeclares, hname⟩ := of_decide_eq_true hfacts
  have hpasses : Relation.ReflTransGen d.Passes 1 0 :=
    .head (mem_turns_iff_passes.1 hpet) (.single (mem_turns_iff_passes.1 halias))
  exact ⟨d, hload, hsize, hmerged, 0, hpasses, hdeclares, hname⟩

theorem resolveProperties_required_weakFirst : ∃ d, load weakFirst {} = .ok (d, []) ∧
    1 < d.arena.size ∧ RequiredExact d 1 := by
  obtain ⟨d, hload, hid, _⟩ := weakFirst_merges
  exact ⟨d, hload, hid, resolveProperties_required hload hid⟩

theorem weakFirst_forgets : ∃ d, load weakFirst {} = .ok (d, []) ∧ 1 < d.arena.size ∧
    d.MustHave 1 "id" ∧ "id" ∉ (d.resolveProperties 1).required := by
  obtain ⟨d, hload, hid, hmerged, hrequires⟩ := weakFirst_merges
  exact ⟨d, hload, hid, hrequires, by simp [hmerged]⟩

end Document

end ApiModel
