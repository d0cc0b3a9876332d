import ApiModel.ModelTree
import ApiModel.Proofs.Schema.Slot
import Mathlib.Logic.Relation

namespace ApiModel

def Slot.holdsElement : Slot → Bool
  | .items | .values => true
  | _ => false

namespace Arena

def Encloses (a : Arena) : Nat → Nat → Prop :=
  Relation.TransGen fun outer inner => inner ∈ (a.node outer).childIds

inductive Within (a : Arena) (target : Nat) : Nat → Nat → Prop
  | here : Within a target target 0
  | inside {current element steps : Nat} : a.element? current = some element →
      Within a target element steps → Within a target current (steps + 1)

def itemNames (steps : Nat) : String := String.join (List.replicate steps "Item")

def Owns (a : Arena) (owner target : Nat) (segment : String) : Prop :=
  ∃ name property steps, (name, property) ∈ a.ownProperties owner ∧
    a.Within target property steps ∧ segment = Naming.typeName name ++ itemNames steps

variable {a : Arena} {target current element id : Nat}

theorem Encloses.lt {outer inner : Nat} (h : a.Encloses outer inner) : outer < inner := by
  induction h with
  | single hchild => exact (a.child_bounds hchild).1
  | tail _ hchild ih => exact Nat.lt_trans ih (a.child_bounds hchild).1

theorem itemNames_succ (segment : String) (steps : Nat) :
    segment ++ itemNames (steps + 1) = (segment ++ "Item") ++ itemNames steps := by
  simp only [itemNames, List.replicate_succ, String.join_cons, String.append_assoc]

theorem mem_children_of_element? (h : a.element? current = some element) :
    ∃ slot, slot.holdsElement = true ∧ (slot, element) ∈ (a.node current).children := by
  unfold element? at h
  simp only at h
  split at h
  · cases h
  · rcases Option.or_eq_some_iff.1 h with hvalues | ⟨_, hitems⟩
    · exact ⟨.values, rfl, SchemaNode.mem_children_of_child? hvalues⟩
    · exact ⟨.items, rfl, SchemaNode.mem_children_of_child? hitems⟩

theorem mem_childIds_of_element? (h : a.element? current = some element) :
    element ∈ (a.node current).childIds := by
  obtain ⟨slot, _, hslot⟩ := mem_children_of_element? h
  exact SchemaNode.mem_childIds_of_mem_children hslot

theorem Within.le {steps : Nat} (h : a.Within target current steps) : current ≤ target := by
  induction h with
  | here => exact Nat.le_refl _
  | inside helement _ ih =>
    have hlt := (element?_bounds helement).1
    omega

theorem segmentBelow?_self (segment : String) :
    a.segmentBelow? target segment target = some segment := by
  rw [segmentBelow?, if_pos rfl]

theorem segmentBelow?_element {segment : String} (hne : current ≠ target)
    (h : a.element? current = some element) :
    a.segmentBelow? target segment current =
      a.segmentBelow? target (segment ++ "Item") element := by
  rw [segmentBelow?, if_neg hne]
  split
  · next found hfound =>
    rw [h] at hfound
    cases hfound
    rfl
  · next hnone =>
    rw [h] at hnone
    cases hnone

theorem segmentBelow?_of_within {steps : Nat} (h : a.Within target current steps)
    (segment : String) :
    a.segmentBelow? target segment current = some (segment ++ itemNames steps) := by
  induction h generalizing segment with
  | here =>
    rw [segmentBelow?_self]
    simp [itemNames]
  | @inside current element steps helement hwithin ih =>
    have hlt := (element?_bounds helement).1
    have hle := hwithin.le
    rw [segmentBelow?_element (by omega) helement, ih, itemNames_succ]

theorem within_of_segmentBelow? {segment found : String}
    (h : a.segmentBelow? target segment current = some found) :
    ∃ steps, a.Within target current steps ∧ found = segment ++ itemNames steps := by
  fun_induction segmentBelow? a target segment current with
  | case1 segment =>
    cases h
    exact ⟨0, .here, by simp [itemNames]⟩
  | case2 segment current hne element helement ih =>
    obtain ⟨steps, hwithin, hfound⟩ := ih h
    refine ⟨steps + 1, .inside helement hwithin, ?_⟩
    rw [hfound, itemNames_succ]
  | case3 => cases h

theorem owns_of_ownedSegment? {owner : Nat} {segment : String}
    (h : a.ownedSegment? owner target = some segment) : a.Owns owner target segment := by
  obtain ⟨⟨name, property⟩, hproperty, hbelow⟩ := List.exists_of_findSome?_eq_some h
  obtain ⟨steps, hwithin, hsegment⟩ := within_of_segmentBelow? hbelow
  exact ⟨name, property, steps, hproperty, hwithin, hsegment⟩

theorem not_owns_of_ownedSegment? {owner : Nat} {segment : String}
    (h : a.ownedSegment? owner target = none) : ¬a.Owns owner target segment := by
  rintro ⟨name, property, steps, hproperty, hwithin, _⟩
  have hnone : a.segmentBelow? target (Naming.typeName name) property = none :=
    List.findSome?_eq_none_iff.1 h (name, property) hproperty
  rw [segmentBelow?_of_within hwithin] at hnone
  cases hnone

def Merges (a : Arena) (outer member : Nat) : Prop := member ∈ (a.node outer).merged

def Contains (a : Arena) (current element : Nat) : Prop := a.element? current = some element

theorem mem_merged_of_mem_inlineMembers {member : { member : Nat // id < member ∧ member < a.size }}
    (h : member ∈ a.inlineMembers id) : a.Merges id member.1 := by
  obtain ⟨⟨i, hi⟩, _, hmember⟩ := List.mem_map.1 (List.mem_filter.1 h).1
  subst hmember
  exact hi

theorem mem_ownProperties {e : String × Nat} (h : e ∈ a.ownProperties id) :
    ∃ outer, Relation.ReflTransGen a.Merges id outer ∧ e ∈ (a.node outer).properties := by
  induction hn : a.size - id using Nat.strongRecOn generalizing id e with
  | ind n ih =>
    subst hn
    have hinherited : ∀ e ∈ (a.inlineMembers id).foldl
        (fun (acc : OrderedMap String Nat) member => acc.insertAll (a.ownProperties member.1)) [],
        ∃ member ∈ a.inlineMembers id, e ∈ a.ownProperties member.1 := by
      refine List.foldlRecOn (motive := fun (m : OrderedMap String Nat) => ∀ e ∈ m,
        ∃ member ∈ a.inlineMembers id, e ∈ a.ownProperties member.1) _ _ (by simp)
        fun m hm member hmember e he => ?_
      rcases OrderedMap.mem_insertAll he with he | he
      · exact hm e he
      · exact ⟨member, hmember, he⟩
    unfold ownProperties at h
    rcases OrderedMap.mem_insertAll h with h | h
    · obtain ⟨member, hmember, he⟩ := hinherited e h
      have hroom := member.2
      obtain ⟨outer, hmerges, hproperty⟩ := ih (a.size - member.1) (by omega) he rfl
      exact ⟨outer, .head (mem_merged_of_mem_inlineMembers hmember) hmerges, hproperty⟩
    · exact ⟨id, .refl, h⟩

theorem top_unique {α : Type} {r : α → α → Prop} {p q x : α}
    (hunique : ∀ p q x, r p x → r q x → p = q) (hp : Relation.ReflTransGen r p x)
    (hq : Relation.ReflTransGen r q x) (hptop : ∀ y, ¬r y p) (hqtop : ∀ y, ¬r y q) : p = q := by
  have hup : Relator.RightUnique (Function.swap r) := fun x p q hp hq => hunique p q x hp hq
  have hp' := Relation.reflTransGen_swap.2 hp
  have hq' := Relation.reflTransGen_swap.2 hq
  rcases Relation.ReflTransGen.total_of_right_unique hup hp' hq' with hpq | hqp
  · rcases Relation.ReflTransGen.cases_head hpq with h | ⟨y, hy, _⟩
    · exact h
    · exact absurd hy (hptop y)
  · rcases Relation.ReflTransGen.cases_head hqp with h | ⟨y, hy, _⟩
    · exact h.symm
    · exact absurd hy (hqtop y)

theorem Merges.unique {p q child : Nat} (hp : a.Merges p child) (hq : a.Merges q child) : p = q :=
  parent_unique (SchemaNode.mem_childIds_of_mem_merged hp)
    (SchemaNode.mem_childIds_of_mem_merged hq)

theorem Contains.unique {p q child : Nat} (hp : a.Contains p child) (hq : a.Contains q child) :
    p = q :=
  parent_unique (mem_childIds_of_element? hp) (mem_childIds_of_element? hq)

theorem Within.contains {steps : Nat} (h : a.Within target current steps) :
    Relation.ReflTransGen a.Contains current target := by
  induction h with
  | here => exact .refl
  | inside helement _ ih => exact .head helement ih

theorem not_contains_property {name : String} {outer property : Nat}
    (h : (name, property) ∈ (a.node outer).properties) (current : Nat) :
    ¬a.Contains current property := by
  intro hcontains
  obtain ⟨slot, hslot, hchild⟩ := mem_children_of_element? hcontains
  have heq := slot_unique hchild (SchemaNode.mem_properties.1 h)
  subst heq
  cases hslot

theorem Owns.unique {p q : Nat} {segment segment' : String} (hp : a.Owns p target segment)
    (hq : a.Owns q target segment') (hpm : ¬a.IsMember p) (hqm : ¬a.IsMember q) :
    p = q ∧ segment = segment' := by
  obtain ⟨name, property, steps, hown, hwithin, rfl⟩ := hp
  obtain ⟨name', property', steps', hown', hwithin', rfl⟩ := hq
  obtain ⟨outer, hmerges, hslot⟩ := mem_ownProperties hown
  obtain ⟨outer', hmerges', hslot'⟩ := mem_ownProperties hown'
  have hproperty : property = property' := by
    apply top_unique (r := a.Contains) (fun _ _ _ => Contains.unique) hwithin.contains
      hwithin'.contains
    · exact not_contains_property hslot
    · exact not_contains_property hslot'
  subst hproperty
  have hslots := slot_unique (SchemaNode.mem_properties.1 hslot)
    (SchemaNode.mem_properties.1 hslot')
  cases hslots
  have houter : outer = outer' :=
    parent_unique (SchemaNode.mem_childIds_of_mem_children (SchemaNode.mem_properties.1 hslot))
      (SchemaNode.mem_childIds_of_mem_children (SchemaNode.mem_properties.1 hslot'))
  subst houter
  have howner : p = q := by
    apply top_unique (r := a.Merges) (fun _ _ _ => Merges.unique) hmerges hmerges'
    · exact fun y hy => hpm ⟨y, hy⟩
    · exact fun y hy => hqm ⟨y, hy⟩
  have hsegment := segmentBelow?_of_within hwithin (Naming.typeName name)
  rw [segmentBelow?_of_within hwithin'] at hsegment
  exact ⟨howner, (Option.some.inj hsegment).symm⟩

theorem Owns.slot {owner : Nat} {segment : String} (h : a.Owns owner target segment) :
    ∃ outer slot, (slot, target) ∈ (a.node outer).children ∧
      (slot.holdsElement = true ∨ ∃ name, slot = .property name) := by
  obtain ⟨name, property, steps, hown, hwithin, _⟩ := h
  obtain ⟨outer, _, hslot⟩ := mem_ownProperties hown
  rcases Relation.ReflTransGen.cases_tail hwithin.contains with rfl | ⟨current, _, hlast⟩
  · exact ⟨outer, .property name, SchemaNode.mem_properties.1 hslot, .inr ⟨name, rfl⟩⟩
  · obtain ⟨slot, hholds, hchild⟩ := mem_children_of_element? hlast
    exact ⟨current, slot, hchild, .inl hholds⟩

theorem Owns.encloses {owner : Nat} {segment : String} (h : a.Owns owner target segment) :
    a.Encloses owner target := by
  obtain ⟨name, property, steps, hown, hwithin, _⟩ := h
  obtain ⟨outer, hmerges, hslot⟩ := mem_ownProperties hown
  have hdown : Relation.ReflTransGen (fun outer inner => inner ∈ (a.node outer).childIds)
      owner outer :=
    Relation.ReflTransGen.mono (fun _ _ h => SchemaNode.mem_childIds_of_mem_merged h) _ _ hmerges
  have hinto : property ∈ (a.node outer).childIds :=
    SchemaNode.mem_childIds_of_mem_children (SchemaNode.mem_properties.1 hslot)
  have hrest : Relation.ReflTransGen (fun outer inner => inner ∈ (a.node outer).childIds)
      property target :=
    Relation.ReflTransGen.mono (fun _ _ h => mem_childIds_of_element? h) _ _ hwithin.contains
  exact (Relation.TransGen.tail' hdown hinto).trans_left hrest

end Arena

end ApiModel
