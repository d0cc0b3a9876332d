import ApiModel.ModelTree
import ApiModel.Proofs.ModelTree.Forest

namespace ApiModel

structure Label where
  id : Nat
  names : TypeNames
  kind : SchemaClass
  deriving DecidableEq

def ModelNode.label (n : ModelNode) : Label := ⟨n.id, n.names, n.kind⟩

namespace ModelTree

def labels (t : ModelTree) : List Label := t.nodes.map ModelNode.label

def childrenAt (t : ModelTree) (index : Nat) : List Nat :=
  ((t.node? index).map (·.children)).getD []

def IsForest (t : ModelTree) : Prop := Forest t.nodes.length t.roots t.parent? t.childrenAt

variable {t : ModelTree} {id index p : Nat} {candidate names : TypeNames} {kind : SchemaClass}
  {parent : Option Nat}

theorem length_labels (t : ModelTree) : t.labels.length = t.nodes.length := List.length_map _

theorem getElem?_labels (t : ModelTree) (index : Nat) :
    t.labels[index]? = (t.node? index).map ModelNode.label := List.getElem?_map

theorem getElem?_labels_of_node? {n : ModelNode} (h : t.node? index = some n) :
    t.labels[index]? = some n.label := by
  rw [getElem?_labels, h, Option.map_some]

theorem label_mem {n : ModelNode} (h : t.node? index = some n) : n.label ∈ t.labels :=
  List.mem_of_getElem? (getElem?_labels_of_node? h)

theorem lt_of_node? {n : ModelNode} (h : t.node? index = some n) : index < t.nodes.length :=
  (List.getElem?_eq_some_iff.1 h).1

theorem exists_node (h : index < t.nodes.length) : ∃ n, t.node? index = some n :=
  ⟨_, List.getElem?_eq_getElem h⟩

theorem namesAt_of_node? {n : ModelNode} (h : t.node? index = some n) :
    t.namesAt index = n.names := by
  rw [namesAt, h]

theorem node?_of_indexOf? (h : t.indexOf? id = some index) :
    ∃ n, t.node? index = some n ∧ n.id = id := by
  have hid := t.schemas_placed.sound id index h
  rwa [List.getElem?_map, Option.map_eq_some_iff] at hid

theorem contains_iff : t.contains id = true ↔ ∃ l ∈ t.labels, l.id = id := by
  simp only [contains, OrderedMap.contains, Option.isSome_iff_exists]
  constructor
  · rintro ⟨index, hindex⟩
    obtain ⟨n, hn, hid⟩ := node?_of_indexOf? hindex
    exact ⟨n.label, label_mem hn, hid⟩
  · rintro ⟨l, hl, rfl⟩
    obtain ⟨n, hn, rfl⟩ := List.mem_map.1 hl
    exact t.schemas_placed.complete _ (List.mem_map.2 ⟨n, hn, rfl⟩)

theorem contains_false_iff : t.contains id = false ↔ ∀ l ∈ t.labels, l.id ≠ id := by
  rw [← Bool.not_eq_true, contains_iff]
  push Not
  rfl

theorem names?_some (h : t.names? id = some names) : ∃ l ∈ t.labels, l.id = id ∧ l.names = names := by
  obtain ⟨index, hindex, rfl⟩ := Option.map_eq_some_iff.1 h
  obtain ⟨n, hn, hid⟩ := node?_of_indexOf? hindex
  exact ⟨n.label, label_mem hn, hid, (namesAt_of_node? hn).symm⟩

theorem names?_isSome (h : t.contains id = true) : ∃ names, t.names? id = some names := by
  obtain ⟨index, hindex⟩ := Option.isSome_iff_exists.1 h
  exact ⟨_, Option.map_eq_some_iff.2 ⟨index, hindex, rfl⟩⟩

theorem find?_some (h : t.find? names = some index) :
    ∃ n, t.node? index = some n ∧ n.names = names := by
  have hnames := t.names_placed.sound names index h
  rwa [List.getElem?_map, Option.map_eq_some_iff] at hnames

theorem find?_isSome {l : Label} (h : l ∈ t.labels) : ∃ index, t.find? l.names = some index := by
  obtain ⟨n, hn, rfl⟩ := List.mem_map.1 h
  exact t.names_placed.complete _ (List.mem_map.2 ⟨n, hn, rfl⟩)

@[simp] theorem nodes_note (t : ModelTree) (n : Note) : (t.note n).nodes = t.nodes := rfl

@[simp] theorem roots_note (t : ModelTree) (n : Note) : (t.note n).roots = t.roots := rfl

theorem nodes_place : (t.place id candidate kind parent).2.nodes =
    (match parent with
      | some p => t.nodes.modify p fun n => { n with children := n.children ++ [t.nodes.length] }
      | none => t.nodes) ++ [⟨id, t.registry.nameFor candidate, kind, parent, []⟩] := rfl

theorem roots_place : (t.place id candidate kind parent).2.roots =
    if parent = none then t.roots ++ [t.nodes.length] else t.roots := by
  cases parent <;> rfl

theorem taken_place : (t.place id candidate kind parent).2.registry.taken =
    t.registry.nameFor candidate :: t.registry.taken := rfl

theorem labels_place : (t.place id candidate kind parent).2.labels =
    t.labels ++ [⟨id, t.registry.nameFor candidate, kind⟩] := by
  rw [labels, nodes_place, List.map_append]
  congr 1
  cases parent with
  | none => rfl
  | some p =>
    refine List.ext_getElem? fun i => ?_
    simp only [labels, List.getElem?_map, List.getElem?_modify]
    split
    · cases t.nodes[i]? <;> rfl
    · cases t.nodes[i]? <;> rfl

theorem forall_mem_labels_place {P : Label → Prop} :
    (∀ l ∈ (t.place id candidate kind parent).2.labels, P l) ↔
      (∀ l ∈ t.labels, P l) ∧ P ⟨id, t.registry.nameFor candidate, kind⟩ := by
  rw [labels_place, List.forall_mem_append, List.forall_mem_singleton]

theorem length_place :
    (t.place id candidate kind parent).2.nodes.length = t.nodes.length + 1 := by
  rw [← length_labels, labels_place, List.length_append, length_labels]
  rfl

theorem node?_place : (t.place id candidate kind parent).2.node? index =
    if index = t.nodes.length then some ⟨id, t.registry.nameFor candidate, kind, parent, []⟩
    else (t.node? index).map fun n =>
      if parent = some index then { n with children := n.children ++ [t.nodes.length] } else n := by
  rw [node?, nodes_place]
  have hlength : ∀ l : List ModelNode, l.length = t.nodes.length →
      (l ++ [⟨id, t.registry.nameFor candidate, kind, parent, []⟩])[index]? =
        if index = t.nodes.length then some ⟨id, t.registry.nameFor candidate, kind, parent, []⟩
        else l[index]? := by
    intro l hl
    by_cases hi : index = t.nodes.length
    · simp [hi, ← hl]
    · rw [if_neg hi, List.getElem?_append]
      split
      · rfl
      · rw [List.getElem?_eq_none (by simp; omega), List.getElem?_eq_none (by omega)]
  cases parent with
  | none =>
    rw [hlength _ rfl]
    simp [node?]
  | some p =>
    rw [hlength _ (List.length_modify _ _ _)]
    by_cases hp : p = index
    · simp [node?, hp]
    · simp [node?, hp]

theorem parent?_place : (t.place id candidate kind parent).2.parent? =
    fun i => if i = t.nodes.length then parent else t.parent? i := by
  funext i
  rw [parent?, node?_place, parent?]
  split
  · rfl
  · cases t.node? i with
    | none => rfl
    | some n =>
      simp only [Option.map_some, Option.bind_some]
      split <;> rfl

theorem childrenAt_place (hp : ∀ p, parent = some p → p < t.nodes.length) :
    (t.place id candidate kind parent).2.childrenAt =
      fun q => if parent = some q then t.childrenAt q ++ [t.nodes.length] else t.childrenAt q := by
  funext q
  rw [childrenAt, node?_place, childrenAt]
  by_cases hq : parent = some q
  · obtain ⟨n, hn⟩ := exists_node (hp q hq)
    have hne := Nat.ne_of_lt (hp q hq)
    simp [hq, hn, hne]
  · by_cases hlen : q = t.nodes.length
    · have hnone : t.node? q = none := List.getElem?_eq_none (Nat.le_of_eq hlen.symm)
      simp only [hq, hnone, if_pos hlen, if_false]
      rfl
    · simp [hq, hlen]

theorem IsForest.place (h : t.IsForest) (hp : ∀ p, parent = some p → p < t.nodes.length) :
    (t.place id candidate kind parent).2.IsForest := by
  have hgrown := Forest.grow h hp
  rwa [← length_place, ← roots_place, ← parent?_place, ← childrenAt_place hp] at hgrown

theorem node?_hang : (t.hang index p).node? id = (t.node? id).map fun n =>
    { n with
      parent := if id = index then some p else n.parent
      children := if id = p then n.children ++ [index] else n.children } := by
  simp only [node?, hang, List.getElem?_modify]
  cases t.nodes[id]? with
  | none => simp
  | some n =>
    by_cases hi : index = id
    · by_cases hp : p = id
      · simp [hi, hp]
      · simp [hi, hp, Ne.symm hp]
    · by_cases hp : p = id
      · simp [Ne.symm hi, hp, hi]
      · simp [hi, Ne.symm hi, hp, Ne.symm hp]

theorem length_hang (t : ModelTree) (index p : Nat) :
    (t.hang index p).nodes.length = t.nodes.length := by
  simp only [hang, List.length_modify]

theorem labels_hang : (t.hang index p).labels = t.labels := by
  refine List.ext_getElem? fun i => ?_
  rw [getElem?_labels, node?_hang, getElem?_labels, Option.map_map]
  rfl

theorem parent?_hang (hi : index < t.nodes.length) :
    (t.hang index p).parent? = fun i => if i = index then some p else t.parent? i := by
  funext i
  rw [parent?, node?_hang, parent?]
  by_cases his : i = index
  · subst his
    obtain ⟨n, hn⟩ := exists_node hi
    simp [hn]
  · cases t.node? i <;> simp [his]

theorem IsForest.hang (h : t.IsForest) (hi : index < t.nodes.length)
    (hroot : t.parent? index = none) (hp : p < t.nodes.length)
    (hnot : ¬Above t.parent? index p) : (t.hang index p).IsForest := by
  have hchildren : (t.hang index p).childrenAt =
      fun q => if q = p then t.childrenAt q ++ [index] else t.childrenAt q := by
    funext q
    rw [childrenAt, node?_hang, childrenAt]
    by_cases hqp : q = p
    · subst hqp
      obtain ⟨n, hn⟩ := exists_node hp
      simp [hn]
    · cases t.node? q <;> simp [hqp]
  have hmoved := Forest.move h hi hroot hp hnot
  rwa [← parent?_hang hi, ← hchildren, ← t.length_hang index p] at hmoved

@[simp] theorem parent?_note (t : ModelTree) (n : Note) : (t.note n).parent? = t.parent? := rfl

theorem lineage_congr {t' : ModelTree} (h : t'.parent? = t.parent?) (steps index : Nat) :
    t'.lineage steps index = t.lineage steps index := by
  induction steps generalizing index with
  | zero => rfl
  | succ steps ih => simp only [lineage, h, ih]

theorem isAncestor_note (t : ModelTree) (n : Note) (a index : Nat) :
    (t.note n).isAncestor a index = t.isAncestor a index := by
  rw [isAncestor, isAncestor, lineage_congr (t.parent?_note n)]
  rfl

theorem mem_lineage {level : Nat → Nat} (hl : Levels t.parent? level) {a steps : Nat}
    (hsteps : level index < steps) : a ∈ t.lineage steps index ↔ Above t.parent? a index := by
  induction steps generalizing index with
  | zero => omega
  | succ steps ih =>
    rw [lineage, List.mem_cons, above_iff_parent]
    cases hp : t.parent? index with
    | none => simp
    | some p =>
      have hlevel := hl.child index p hp
      simp only [Option.some.injEq, exists_eq_left']
      rw [ih (by omega)]

theorem IsForest.isAncestor_iff (h : t.IsForest) {a : Nat} (hi : index < t.nodes.length) :
    t.isAncestor a index = true ↔ Above t.parent? a index := by
  obtain ⟨level, hl⟩ := h.levels
  rw [isAncestor, decide_eq_true_eq]
  exact mem_lineage hl (Nat.lt_succ_of_lt (h.level_lt hl hi))

end ModelTree

end ApiModel
