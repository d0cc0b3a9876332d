import ApiModel.Proofs.ModelTree.Shape
import ApiModel.Proofs.Names.Dotted
import ApiModel.Proofs.Reachability.Closure

namespace ApiModel

def SchemaClass.Nests (kind : SchemaClass) : Prop := kind = .object ∨ kind = .sealed

theorem classify_ref_iff {n : SchemaNode} : classify n = .ok .ref ↔ n.reference.isSome = true := by
  have hnumber : ∀ fallback, n.numberClass fallback ≠ .ok .ref := by
    intro fallback
    unfold SchemaNode.numberClass
    split <;> simp
  have hobject : n.objectClass ≠ .ref := by
    unfold SchemaNode.objectClass
    split
    · simp
    · split <;> simp
  unfold classify
  split
  · next href => simp [href]
  · next href =>
    simp only [href, Bool.false_eq_true, iff_false]
    split
    · simp
    · split
      · split <;> simp
      · simp
      · exact hnumber _
      · exact hnumber _
      · simp
      · simpa using hobject

namespace Document

variable {d : Document} {o : Options} {id : Nat} {kind : SchemaClass}

theorem Recorded.reached (h : d.Recorded o id kind) : d.Reached o id := by
  rcases h with ⟨hr, _⟩ | ⟨⟨⟨name, hm⟩, hf, _⟩, _⟩
  · exact hr
  · exact .entry (.kept hm hf)

theorem Recorded.classify (h : d.Recorded o id kind) : classify (d.node id) = .ok kind := by
  rcases h with ⟨_, _, _, hk⟩ | ⟨⟨_, _, hr⟩, rfl⟩
  · exact hk
  · exact classify_ref_iff.2 hr

theorem Recorded.reference_none (h : d.Recorded o id kind) (hk : kind ≠ .ref) :
    (d.node id).reference = none := by
  rcases h with ⟨_, hr, _⟩ | ⟨_, hk'⟩
  · exact hr
  · exact absurd hk' hk

theorem Recorded.reference_some (h : d.Recorded o id .ref) :
    ∃ text, (d.node id).reference = some text :=
  Option.isSome_iff_exists.1 (classify_ref_iff.1 h.classify)

theorem Recorded.of_part {part : Nat} {slot : Slot} (hr : d.Reached o id)
    (hnone : (d.node id).reference = none) (hsub : part ∈ (d.node id).subschemas)
    (hslot : (slot, part) ∈ (d.node id).children) (hs : slot.merges = false)
    (href : (d.node part).reference = none) (hk : ApiModel.classify (d.node part) = .ok kind) :
    d.Recorded o part kind := by
  refine .inl ⟨.step hr (.part hnone hsub), href, ?_, hk⟩
  rw [Arena.isMember_iff hslot, hs]
  exact Bool.false_ne_true

end Document

theorem SchemaNode.mem_subschemas_of_oneOf {n : SchemaNode} {id : Nat} (h : id ∈ n.oneOf) :
    id ∈ n.subschemas := by
  simp only [subschemas, List.mem_append]
  tauto

namespace TypeNames

theorem dotless_item : Dotless "Item" := by
  unfold Dotless
  decide

theorem dotless_oneOf (number : Nat) : Dotless ("OneOf" ++ toString number) := by
  refine Dotless.append ?_ (dotless_number number)
  unfold Dotless
  decide

end TypeNames

namespace Arena

theorem dotless_segmentBelow? {a : Arena} {target current : Nat} {segment found : String}
    (hs : TypeNames.Dotless segment) (h : a.segmentBelow? target segment current = some found) :
    TypeNames.Dotless found := by
  fun_induction segmentBelow? a target segment current with
  | case1 segment => exact Option.some.inj h ▸ hs
  | case2 segment current hne element helement ih => exact ih (hs.append TypeNames.dotless_item) h
  | case3 => cases h

end Arena

namespace ModelTree

variable {d : Document} {o : Options} {t t' : ModelTree} {id index p : Nat} {kind : SchemaClass}
  {candidate names : TypeNames} {parent : Option Nat}

theorem owner?_some {segment : String} (h : t.owner? d id = some (index, segment)) :
    (∃ n, t.node? index = some n ∧ n.kind = .object) ∧ TypeNames.Dotless segment := by
  obtain ⟨⟨n, i⟩, hmem, hn⟩ := List.exists_of_findSome?_eq_some h
  simp only [Option.ite_none_right_eq_some, Option.map_eq_some_iff, Prod.mk.injEq] at hn
  obtain ⟨hkind, found, howned, rfl, rfl⟩ := hn
  refine ⟨⟨n, List.mk_mem_zipIdx_iff_getElem?.1 hmem, hkind⟩, ?_⟩
  obtain ⟨⟨name, property⟩, _, hbelow⟩ := List.exists_of_findSome?_eq_some howned
  exact Arena.dotless_segmentBelow? (TypeNames.dotless_typeName name) hbelow

inductive Step (d : Document) (o : Options) : ModelTree → ModelTree → Prop
  | note (t : ModelTree) (n : Note) : Step d o t (t.note n)
  | root {t : ModelTree} {id : Nat} {kind : SchemaClass} (name : String) :
      d.Recorded o id kind → t.contains id = false →
        Step d o t (t.place id (.root (Naming.typeName name)) kind none).2
  | owned {t : ModelTree} {id p : Nat} {kind : SchemaClass} {segment : String} :
      d.Recorded o id kind → t.contains id = false → t.owner? d id = some (p, segment) →
        Step d o t (t.place id ((t.namesAt p).child segment) kind (some p)).2
  | member {t : ModelTree} {p number id : Nat} {l : Label} {kind : SchemaClass} :
      t.labels[p]? = some l → l.kind = .sealed → (d.node l.id).oneOf[number]? = some id →
        (d.node id).reference = none → t.contains id = false → classify (d.node id) = .ok kind →
          Step d o t (t.place id (l.names.child ("OneOf" ++ toString number)) kind (some p)).2
  | nest {t t' : ModelTree} {index union : Nat} {l : Label} :
      index < t.nodes.length → t.labels[union]? = some l → l.kind = .sealed →
        t.moveUnder index union = .ok t' → Step d o t t'

def Run (d : Document) (o : Options) : ModelTree → ModelTree → Prop :=
  Relation.ReflTransGen (Step d o)

structure Sound (d : Document) (o : Options) (t : ModelTree) : Prop where
  forest : t.IsForest
  ids : (t.labels.map (·.id)).Nodup
  names : (t.labels.map (·.names)).Nodup
  taken : ∀ l ∈ t.labels, l.names ∈ t.registry.taken
  plain : ∀ l ∈ t.labels, l.names.Plain
  recorded : ∀ l ∈ t.labels, d.Recorded o l.id l.kind
  holders : ∀ c p, t.parent? c = some p → ∃ l, t.labels[p]? = some l ∧ l.kind.Nests

theorem Sound.empty (d : Document) (o : Options) : Sound d o {} where
  forest := Forest.empty
  ids := List.nodup_nil
  names := List.nodup_nil
  taken := by simp [labels]
  plain := by simp [labels]
  recorded := by simp [labels]
  holders := by simp [parent?, node?]

theorem Sound.nests (h : t.Sound d o) {n : ModelNode} (hn : t.node? index = some n) {child : Nat}
    (hc : t.parent? child = some index) : n.kind.Nests := by
  obtain ⟨l, hl, hnests⟩ := h.holders child index hc
  rw [getElem?_labels_of_node? hn] at hl
  cases hl
  exact hnests

theorem Sound.place (h : t.Sound d o) (hrec : d.Recorded o id kind)
    (hnew : t.contains id = false) (hplain : candidate.Plain)
    (hparent : ∀ p, parent = some p → ∃ l, t.labels[p]? = some l ∧ l.kind.Nests) :
    (t.place id candidate kind parent).2.Sound d o where
  forest := by
    refine h.forest.place fun p hp => ?_
    obtain ⟨l, hl, _⟩ := hparent p hp
    rw [← length_labels]
    exact (List.getElem?_eq_some_iff.1 hl).1
  ids := by
    have hfresh : id ∉ t.labels.map (·.id) := by
      intro hmem
      obtain ⟨l, hl, hid⟩ := List.mem_map.1 hmem
      exact contains_false_iff.1 hnew l hl hid
    rw [labels_place, List.map_append]
    exact List.concat_eq_append ▸ h.ids.concat hfresh
  names := by
    have hfresh : t.registry.nameFor candidate ∉ t.labels.map (·.names) := by
      intro hmem
      obtain ⟨l, hl, hnames⟩ := List.mem_map.1 hmem
      exact t.registry.nameFor_not_mem candidate (hnames ▸ h.taken l hl)
    rw [labels_place, List.map_append]
    exact List.concat_eq_append ▸ h.names.concat hfresh
  taken := by
    rw [taken_place, forall_mem_labels_place]
    exact ⟨fun l hl => List.mem_cons_of_mem _ (h.taken l hl), List.mem_cons_self⟩
  plain := forall_mem_labels_place.2 ⟨h.plain, hplain.nameFor t.registry⟩
  recorded := forall_mem_labels_place.2 ⟨h.recorded, hrec⟩
  holders c p hp := by
    have hold : ∃ l, t.labels[p]? = some l ∧ l.kind.Nests := by
      simp only [parent?_place] at hp
      split at hp
      · exact hparent p hp
      · exact h.holders c p hp
    obtain ⟨l, hl, hn⟩ := hold
    rw [labels_place, List.getElem?_append_left (List.getElem?_eq_some_iff.1 hl).1]
    exact ⟨l, hl, hn⟩

theorem moveUnder_eq_ok (h : t.moveUnder index p = .ok t') :
    t.parent? index = none ∧ t.isAncestor index p = false ∧ t' = t.hang index p := by
  unfold moveUnder at h
  simp only at h
  split at h
  · cases h
  · next hroot =>
    split at h
    · cases h
    · next hnot =>
      cases h
      exact ⟨by simpa using hroot, by simpa using hnot, rfl⟩

theorem Sound.hang (h : t.Sound d o) (hi : index < t.nodes.length)
    (hroot : t.parent? index = none) (hnot : t.isAncestor index p = false) {l : Label}
    (hl : t.labels[p]? = some l) (hk : l.kind = .sealed) : (t.hang index p).Sound d o where
  forest := by
    have hp : p < t.nodes.length := by
      rw [← length_labels]
      exact (List.getElem?_eq_some_iff.1 hl).1
    refine h.forest.hang hi hroot hp fun ha => ?_
    rw [(h.forest.isAncestor_iff hp).2 ha] at hnot
    cases hnot
  ids := by
    rw [labels_hang]
    exact h.ids
  names := by
    rw [labels_hang]
    exact h.names
  taken := by
    rw [labels_hang]
    exact h.taken
  plain := by
    rw [labels_hang]
    exact h.plain
  recorded := by
    rw [labels_hang]
    exact h.recorded
  holders c q hq := by
    rw [labels_hang]
    rw [parent?_hang hi] at hq
    simp only at hq
    split at hq
    · cases hq
      exact ⟨l, hl, .inr hk⟩
    · exact h.holders c q hq

theorem Sound.step (h : t.Sound d o) (hs : Step d o t t') : t'.Sound d o := by
  cases hs with
  | note n => exact ⟨h.forest, h.ids, h.names, h.taken, h.plain, h.recorded, h.holders⟩
  | root name hrec hnew =>
    exact h.place hrec hnew (TypeNames.plain_root (TypeNames.dotless_typeName name)) (by simp)
  | @owned id p kind segment hrec hnew howner =>
    obtain ⟨⟨n, hn, hk⟩, hsegment⟩ := owner?_some howner
    refine h.place hrec hnew ?_ fun q hq => ?_
    · rw [namesAt_of_node? hn]
      exact (h.plain _ (label_mem hn)).child hsegment
    · cases hq
      exact ⟨n.label, getElem?_labels_of_node? hn, .inl hk⟩
  | @member p number id l kind hl hsealed hmember href hnew hk =>
    have hsound := h.recorded l (List.mem_of_getElem? hl)
    have hmem := List.mem_of_getElem? hmember
    obtain ⟨place, hslot⟩ := SchemaNode.mem_oneOf.1 hmem
    have hrec := Document.Recorded.of_part hsound.reached
      (hsound.reference_none (by rw [hsealed]; decide))
      (SchemaNode.mem_subschemas_of_oneOf hmem) hslot rfl href hk
    refine h.place hrec hnew ?_ fun q hq => ?_
    · exact (h.plain l (List.mem_of_getElem? hl)).child (TypeNames.dotless_oneOf number)
    · cases hq
      exact ⟨l, hl, .inr hsealed⟩
  | nest hi hl hk hmove =>
    obtain ⟨hroot, hnot, rfl⟩ := moveUnder_eq_ok hmove
    exact h.hang hi hroot hnot hl hk

theorem Sound.run (h : t.Sound d o) (hr : Run d o t t') : t'.Sound d o := by
  induction hr with
  | refl => exact h
  | tail _ hs ih => exact ih.step hs

theorem Step.labels (hs : Step d o t t') : ∃ more, t'.labels = t.labels ++ more := by
  cases hs with
  | note n => exact ⟨[], (List.append_nil _).symm⟩
  | root _ _ _ => exact ⟨_, labels_place⟩
  | owned _ _ _ => exact ⟨_, labels_place⟩
  | member _ _ _ _ _ _ => exact ⟨_, labels_place⟩
  | nest _ _ _ hmove =>
    obtain ⟨_, _, rfl⟩ := moveUnder_eq_ok hmove
    exact ⟨[], by rw [labels_hang, List.append_nil]⟩

theorem Run.labels (hr : Run d o t t') : ∃ more, t'.labels = t.labels ++ more := by
  induction hr with
  | refl => exact ⟨[], (List.append_nil _).symm⟩
  | tail _ hs ih =>
    obtain ⟨more, hmore⟩ := ih
    obtain ⟨new, hnew⟩ := hs.labels
    exact ⟨more ++ new, by rw [hnew, hmore, List.append_assoc]⟩

theorem Run.mem (hr : Run d o t t') {l : Label} (hl : l ∈ t.labels) : l ∈ t'.labels := by
  obtain ⟨more, hmore⟩ := hr.labels
  rw [hmore]
  exact List.mem_append_left _ hl

theorem Run.getElem? (hr : Run d o t t') {l : Label} (hl : t.labels[index]? = some l) :
    t'.labels[index]? = some l := by
  obtain ⟨more, hmore⟩ := hr.labels
  rw [hmore, List.getElem?_append_left (List.getElem?_eq_some_iff.1 hl).1]
  exact hl

theorem Run.contains (hr : Run d o t t') (h : t.contains id = true) : t'.contains id = true := by
  obtain ⟨l, hl, hid⟩ := contains_iff.1 h
  exact contains_iff.2 ⟨l, hr.mem hl, hid⟩

theorem Sound.names?_iff (h : t.Sound d o) :
    t.names? id = some names ↔ ∃ l ∈ t.labels, l.id = id ∧ l.names = names := by
  constructor
  · exact names?_some
  · rintro ⟨l, hl, rfl, rfl⟩
    obtain ⟨found, hfound⟩ := names?_isSome (contains_iff.2 ⟨l, hl, rfl⟩)
    obtain ⟨m, hm, hid, rfl⟩ := names?_some hfound
    rw [hfound, List.inj_on_of_nodup_map h.ids hm hl hid]

theorem Sound.names?_eq (h : t.Sound d o) (h' : t'.Sound d o) (hlabels : t'.labels = t.labels)
    (id : Nat) : t'.names? id = t.names? id := by
  apply Option.ext
  intro names
  rw [h.names?_iff, h'.names?_iff, hlabels]

theorem Step.parent? (h : Step d o t t') (hp : t.parent? index = some p) :
    t'.parent? index = some p := by
  have hplace : ∀ (id : Nat) (candidate : TypeNames) (kind : SchemaClass) (parent : Option Nat),
      (t.place id candidate kind parent).2.parent? index = some p := by
    intro id candidate kind parent
    have hne : index ≠ t.nodes.length := by
      rintro rfl
      have hnone : t.parent? t.nodes.length = none := by
        simp only [ModelTree.parent?, node?, List.getElem?_eq_none (Nat.le_refl _), Option.bind_none]
      rw [hp] at hnone
      cases hnone
    rw [parent?_place]
    exact (if_neg hne).trans hp
  cases h with
  | note n => exact hp
  | root _ _ _ => exact hplace _ _ _ _
  | owned _ _ _ => exact hplace _ _ _ _
  | member _ _ _ _ _ _ => exact hplace _ _ _ _
  | @nest _ moved _ _ hi _ _ hmove =>
    obtain ⟨hroot, _, rfl⟩ := moveUnder_eq_ok hmove
    have hne : index ≠ moved := by
      rintro rfl
      rw [hp] at hroot
      cases hroot
    rw [parent?_hang hi]
    exact (if_neg hne).trans hp

theorem Run.parent? (h : Run d o t t') (hp : t.parent? index = some p) :
    t'.parent? index = some p := by
  induction h with
  | refl => exact hp
  | tail _ hstep ih => exact hstep.parent? ih

end ModelTree

end ApiModel
