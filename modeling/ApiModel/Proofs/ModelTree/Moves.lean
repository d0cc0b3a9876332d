import ApiModel.Proofs.ModelTree.Exact

namespace ApiModel

theorem Levels.lt_of_transGen {parent : Nat → Option Nat} {level : Nat → Nat}
    (hl : Levels parent level) {i a : Nat}
    (h : Relation.TransGen (fun c p => parent c = some p) i a) : level a < level i := by
  induction h with
  | single hp =>
    have hlevel := hl.child _ _ hp
    omega
  | tail _ hp ih =>
    have hlevel := hl.child _ _ hp
    omega

theorem Positions.get?_iff {α : Type} [DecidableEq α] {table : OrderedMap α Nat} {keys : List α}
    (h : Positions table keys) (hnodup : keys.Nodup) {key : α} {index : Nat} :
    table.get? key = some index ↔ keys[index]? = some key := by
  constructor
  · exact h.sound key index
  · intro hkey
    obtain ⟨found, hfound⟩ := h.complete key (List.mem_of_getElem? hkey)
    have hplace := h.sound key found hfound
    have hlt := (List.getElem?_eq_some_iff.1 hplace).1
    rw [hfound, (List.getElem?_inj hlt hnodup).1 (hplace.trans hkey.symm)]

namespace ModelTree

def attempt (t : ModelTree) (move : Nat × Nat) : ModelTree :=
  match t.moveUnder move.1 move.2 with
  | .ok moved => moved
  | .error _ => t

def attemptAll (t : ModelTree) (moves : List (Nat × Nat)) : ModelTree := moves.foldl attempt t

structure Linked (t : ModelTree) : Prop where
  children : ∀ p owner, t.node? p = some owner → ∀ index,
    owner.children.count index = if t.parent? index = some p then 1 else 0
  roots : ∀ index,
    t.roots.count index = if index < t.nodes.length ∧ t.parent? index = none then 1 else 0
  parents : ∀ index p, t.parent? index = some p → p < t.nodes.length
  acyclic : ∀ index, ¬Relation.TransGen (fun c p => t.parent? c = some p) index index
  ends : ∀ index, index < t.nodes.length → ∃ root,
    (t.lineage (t.nodes.length + 1) index).getLast? = some root ∧ t.parent? root = none
  ancestors : ∀ a index, index < t.nodes.length →
    (t.isAncestor a index = true ↔ Above t.parent? a index)
  schemas : ∀ id index, t.indexOf? id = some index ↔ ∃ n, t.node? index = some n ∧ n.id = id
  names : ∀ names index, t.find? names = some index ↔ ∃ n, t.node? index = some n ∧ n.names = names

variable {d : Document} {o : Options} {r : Reachability} {t t' : ModelTree} {index p : Nat}
  {moves : List (Nat × Nat)}

theorem map_names_labels (t : ModelTree) : t.labels.map (·.names) = t.nodes.map (·.names) :=
  List.map_map

theorem getLast?_lineage {level : Nat → Nat} (hl : Levels t.parent? level) {steps : Nat}
    (hsteps : level index < steps) :
    ∃ root, (t.lineage steps index).getLast? = some root ∧ t.parent? root = none := by
  induction steps generalizing index with
  | zero => omega
  | succ steps ih =>
    rw [lineage]
    cases hp : t.parent? index with
    | none => exact ⟨index, rfl, hp⟩
    | some q =>
      have hlevel := hl.child index q hp
      obtain ⟨root, hroot, hnone⟩ := @ih q (by omega)
      refine ⟨root, ?_, hnone⟩
      simp only [List.getLast?_cons, hroot, Option.getD_some]

theorem count_eq_ite {l : List Nat} (h : l.Nodup) {P : Prop} [Decidable P] {a : Nat}
    (hmem : a ∈ l ↔ P) : l.count a = if P then 1 else 0 := by
  split
  · next hp => exact List.count_eq_one_of_mem h (hmem.2 hp)
  · next hp => exact List.count_eq_zero_of_not_mem fun ha => hp (hmem.1 ha)

theorem moveUnder_ok_iff (h : t.IsForest) (hp : p < t.nodes.length) :
    (∃ moved, t.moveUnder index p = .ok moved) ↔
      t.parent? index = none ∧ ¬Above t.parent? index p := by
  rw [← h.isAncestor_iff hp]
  constructor
  · rintro ⟨moved, hmoved⟩
    obtain ⟨hroot, hnot, _⟩ := moveUnder_eq_ok hmoved
    exact ⟨hroot, by rw [hnot]; exact Bool.false_ne_true⟩
  · rintro ⟨hroot, hnot⟩
    exact ⟨t.hang index p, by simp [moveUnder, hroot, hnot]⟩

theorem attempt_of_error {e : ConversionError} (h : t.moveUnder index p = .error e) :
    t.attempt (index, p) = t := by
  simp only [attempt, h]

theorem attempt_of_ok (h : t.moveUnder index p = .ok t') : t.attempt (index, p) = t' := by
  simp only [attempt, h]

theorem labels_attempt (t : ModelTree) (move : Nat × Nat) : (t.attempt move).labels = t.labels := by
  obtain ⟨index, p⟩ := move
  cases hmove : t.moveUnder index p with
  | error e => rw [attempt_of_error hmove]
  | ok moved =>
    obtain ⟨_, _, rfl⟩ := moveUnder_eq_ok hmove
    rw [attempt_of_ok hmove, labels_hang]

theorem IsForest.attempt (h : t.IsForest) (hi : index < t.nodes.length)
    (hp : p < t.nodes.length) : (t.attempt (index, p)).IsForest := by
  cases hmove : t.moveUnder index p with
  | error e => rwa [attempt_of_error hmove]
  | ok moved =>
    obtain ⟨hroot, hnot⟩ := (moveUnder_ok_iff h hp).1 ⟨moved, hmove⟩
    obtain ⟨_, _, rfl⟩ := moveUnder_eq_ok hmove
    rw [attempt_of_ok hmove]
    exact h.hang hi hroot hp hnot

theorem labels_attemptAll (t : ModelTree) (moves : List (Nat × Nat)) :
    (t.attemptAll moves).labels = t.labels := by
  induction moves generalizing t with
  | nil => rfl
  | cons move moves ih => exact (ih (t.attempt move)).trans (t.labels_attempt move)

theorem length_attemptAll (t : ModelTree) (moves : List (Nat × Nat)) :
    (t.attemptAll moves).nodes.length = t.nodes.length := by
  rw [← length_labels, labels_attemptAll, length_labels]

theorem IsForest.attemptAll (h : t.IsForest)
    (hmoves : ∀ move ∈ moves, move.1 < t.nodes.length ∧ move.2 < t.nodes.length) :
    (t.attemptAll moves).IsForest := by
  induction moves generalizing t with
  | nil => exact h
  | cons move moves ih =>
    obtain ⟨hi, hp⟩ := hmoves move List.mem_cons_self
    apply ih (h.attempt hi hp)
    intro next hnext
    rw [← length_labels, labels_attempt, length_labels]
    exact hmoves next (List.mem_cons_of_mem _ hnext)

theorem IsForest.linked (h : t.IsForest) (hids : (t.labels.map (·.id)).Nodup)
    (hnames : (t.labels.map (·.names)).Nodup) : t.Linked where
  children p owner howner index := by
    have hnodup := h.children_nodup p
    rw [childrenAt, howner] at hnodup
    exact count_eq_ite hnodup (h.mem_children_iff howner)
  roots index := count_eq_ite h.roots_nodup (h.mem_roots index)
  parents index p hp := (h.bounded index p hp).2
  acyclic index hcycle := by
    obtain ⟨level, hl⟩ := h.levels
    exact Nat.lt_irrefl _ (hl.lt_of_transGen hcycle)
  ends index hi := by
    obtain ⟨level, hl⟩ := h.levels
    exact getLast?_lineage hl (Nat.lt_succ_of_lt (h.level_lt hl hi))
  ancestors a index hi := h.isAncestor_iff hi
  schemas id index := by
    rw [indexOf?, t.schemas_placed.get?_iff (t.map_id_labels ▸ hids), List.getElem?_map,
      Option.map_eq_some_iff]
    rfl
  names names index := by
    rw [find?, t.names_placed.get?_iff (t.map_names_labels ▸ hnames), List.getElem?_map,
      Option.map_eq_some_iff]
    rfl

theorem moves_keep_links {text : String} {l : Options} {complaints : List String}
    (hload : Document.load text l = .ok (d, complaints)) (hr : d.reachable o = .ok r)
    (ht : build d r = .ok t)
    (hmoves : ∀ move ∈ moves, move.1 < t.nodes.length ∧ move.2 < t.nodes.length) :
    (t.attemptAll moves).Linked ∧ (t.attemptAll moves).labels = t.labels ∧
      ∀ index p, index < t.nodes.length → p < t.nodes.length →
        ((∃ moved, (t.attemptAll moves).moveUnder index p = .ok moved) ↔
          index ∈ (t.attemptAll moves).roots ∧ ¬Above (t.attemptAll moves).parent? index p) ∧
        (∀ moved, (t.attemptAll moves).moveUnder index p = .ok moved → ∀ i,
          moved.parent? i = if i = index then some p else (t.attemptAll moves).parent? i) ∧
        ∀ e, (t.attemptAll moves).moveUnder index p = .error e →
          (t.attemptAll moves).attempt (index, p) = t.attemptAll moves := by
  have hsound := (built_of_build (Document.rooted_of_load hload) hr ht).1.sound
  have hforest := hsound.forest.attemptAll hmoves
  have hlabels := t.labels_attemptAll moves
  refine ⟨hforest.linked ?_ ?_, hlabels, fun index p hi hp => ?_⟩
  · rw [hlabels]
    exact hsound.ids
  · rw [hlabels]
    exact hsound.names
  · rw [← t.length_attemptAll moves] at hi hp
    refine ⟨?_, fun moved hmoved i => ?_, fun e => attempt_of_error⟩
    · rw [moveUnder_ok_iff hforest hp, hforest.mem_roots index]
      simp only [hi, true_and]
    · obtain ⟨_, _, rfl⟩ := moveUnder_eq_ok hmoved
      rw [parent?_hang hi]

theorem moves_keep_links_nested : ∃ d r t, Document.load nested {} = .ok (d, []) ∧
    d.reachable Document.keepAll = .ok r ∧ build d r = .ok t ∧
      (∀ move ∈ [(1, 6), (6, 1), (2, 2)], move.1 < t.nodes.length ∧ move.2 < t.nodes.length) ∧
        (t.attemptAll [(1, 6), (6, 1), (2, 2)]).Linked ∧
          (t.attemptAll [(1, 6), (6, 1), (2, 2)]).labels = t.labels := by
  obtain ⟨d, r, t, _, hload, hr, ht, _, hlength, _⟩ := nested_resolves
  have hmoves : ∀ move ∈ [(1, 6), (6, 1), (2, 2)],
      move.1 < t.nodes.length ∧ move.2 < t.nodes.length := by
    rw [hlength]
    decide
  obtain ⟨hlinked, hlabels, _⟩ := moves_keep_links hload hr ht hmoves
  exact ⟨d, r, t, hload, hr, ht, hmoves, hlinked, hlabels⟩

end ModelTree

end ApiModel
