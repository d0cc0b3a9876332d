import ApiModel.Schema.Arena
import Mathlib.Data.List.Nodup

namespace ApiModel

def Slot.merges : Slot → Bool
  | .allOf _ | .anyOf _ => true
  | _ => false

namespace SchemaNode

variable {n : SchemaNode} {id : Nat}

theorem mem_children_of_child? {slot : Slot} (h : n.child? slot = some id) :
    (slot, id) ∈ n.children := by
  obtain ⟨⟨s, i⟩, hmem, hs⟩ := List.exists_of_findSome?_eq_some h
  simp only [Option.ite_none_right_eq_some, Option.some.injEq] at hs
  obtain ⟨rfl, rfl⟩ := hs
  exact hmem

theorem mem_allOf : id ∈ n.allOf ↔ ∃ place, (Slot.allOf place, id) ∈ n.children := by
  simp only [allOf, List.mem_filterMap]
  constructor
  · rintro ⟨⟨s, i⟩, hmem, hs⟩
    cases s <;> simp at hs
    exact ⟨_, hs ▸ hmem⟩
  · rintro ⟨place, hmem⟩
    exact ⟨_, hmem, rfl⟩

theorem mem_anyOf : id ∈ n.anyOf ↔ ∃ place, (Slot.anyOf place, id) ∈ n.children := by
  simp only [anyOf, List.mem_filterMap]
  constructor
  · rintro ⟨⟨s, i⟩, hmem, hs⟩
    cases s <;> simp at hs
    exact ⟨_, hs ▸ hmem⟩
  · rintro ⟨place, hmem⟩
    exact ⟨_, hmem, rfl⟩

theorem mem_oneOf : id ∈ n.oneOf ↔ ∃ place, (Slot.oneOf place, id) ∈ n.children := by
  simp only [oneOf, List.mem_filterMap]
  constructor
  · rintro ⟨⟨s, i⟩, hmem, hs⟩
    cases s <;> simp at hs
    exact ⟨_, hs ▸ hmem⟩
  · rintro ⟨place, hmem⟩
    exact ⟨_, hmem, rfl⟩

theorem mem_properties {name : String} :
    (name, id) ∈ n.properties ↔ (Slot.property name, id) ∈ n.children := by
  simp only [properties, List.mem_filterMap]
  constructor
  · rintro ⟨⟨s, i⟩, hmem, hs⟩
    cases s <;> simp at hs
    obtain ⟨rfl, rfl⟩ := hs
    exact hmem
  · intro hmem
    exact ⟨_, hmem, rfl⟩

theorem mem_merged : id ∈ n.merged ↔ ∃ slot, slot.merges = true ∧ (slot, id) ∈ n.children := by
  rw [merged, List.mem_append, mem_allOf, mem_anyOf]
  constructor
  · rintro (⟨place, h⟩ | ⟨place, h⟩)
    · exact ⟨_, rfl, h⟩
    · exact ⟨_, rfl, h⟩
  · rintro ⟨slot, hs, h⟩
    cases slot with
    | allOf place => exact .inl ⟨place, h⟩
    | anyOf place => exact .inr ⟨place, h⟩
    | _ => cases hs

theorem mem_childIds_of_mem_children {slot : Slot} (h : (slot, id) ∈ n.children) :
    id ∈ n.childIds := List.mem_map.2 ⟨_, h, rfl⟩

end SchemaNode

namespace Arena

variable {a : Arena}

theorem getElem?_nodes {id : Nat} (h : id < a.size) : a.nodes[id]? = some (a.node id) := by
  have hn : a.nodes[id]? = some a.nodes[id] := Array.getElem?_eq_getElem h
  rw [node, hn, Option.getD_some]

theorem lt_of_mem_childIds {p child : Nat} (h : child ∈ (a.node p).childIds) : p < a.size := by
  have := a.child_bounds h
  omega

theorem mem_edges {p child : Nat} (h : child ∈ (a.node p).childIds) : child ∈ a.edges := by
  have hp := getElem?_nodes (lt_of_mem_childIds h)
  rw [← Array.getElem?_toList] at hp
  exact List.mem_flatMap.2 ⟨_, List.mem_of_getElem? hp, h⟩

theorem childIds_nodup (p : Nat) : (a.node p).childIds.Nodup := by
  by_cases hp : p < a.size
  · have hn := getElem?_nodes hp
    rw [← Array.getElem?_toList] at hn
    exact (List.nodup_flatMap.1 a.separate).1 _ (List.mem_of_getElem? hn)
  · have hn : a.nodes[p]? = none := Array.getElem?_eq_none (Nat.le_of_not_lt hp)
    simp [node, hn, SchemaNode.childIds]

theorem parent_unique {p q child : Nat} (hp : child ∈ (a.node p).childIds)
    (hq : child ∈ (a.node q).childIds) : p = q := by
  have hapart := (List.nodup_flatMap.1 a.separate).2
  rw [List.pairwise_iff_getElem] at hapart
  have key : ∀ {i j : Nat}, i < j → child ∈ (a.node i).childIds →
      child ∈ (a.node j).childIds → False := by
    intro i j hij hi hj
    have hsi := lt_of_mem_childIds hi
    have hsj := lt_of_mem_childIds hj
    have hni := getElem?_nodes hsi
    have hnj := getElem?_nodes hsj
    rw [← Array.getElem?_toList] at hni hnj
    obtain ⟨hli, hi'⟩ := List.getElem?_eq_some_iff.1 hni
    obtain ⟨hlj, hj'⟩ := List.getElem?_eq_some_iff.1 hnj
    have hd := hapart i j hli hlj hij
    simp only [Function.onFun, hi', hj'] at hd
    exact hd hi hj
  rcases Nat.lt_trichotomy p q with h | h | h
  · exact (key h hp hq).elim
  · exact h
  · exact (key h hq hp).elim

theorem slot_unique {p q child : Nat} {slot slot' : Slot}
    (hp : (slot, child) ∈ (a.node p).children) (hq : (slot', child) ∈ (a.node q).children) :
    slot = slot' := by
  have hpq := parent_unique (SchemaNode.mem_childIds_of_mem_children hp)
    (SchemaNode.mem_childIds_of_mem_children hq)
  subst hpq
  have h := List.inj_on_of_nodup_map (childIds_nodup p) hp hq rfl
  exact congrArg Prod.fst h

theorem oneOf_nodup (id : Nat) : (a.node id).oneOf.Nodup := by
  have hchildren := List.pairwise_map.1 (childIds_nodup (a := a) id)
  refine List.pairwise_filterMap.2 (hchildren.imp ?_)
  rintro ⟨slot, i⟩ ⟨slot', j⟩ hne k hk k' hk'
  cases slot <;> simp at hk
  cases slot' <;> simp at hk'
  rwa [← hk, ← hk']

theorem oneOf_number_unique {id number number' member : Nat}
    (h : (a.node id).oneOf[number]? = some member)
    (h' : (a.node id).oneOf[number']? = some member) : number = number' :=
  (List.getElem?_inj (List.getElem?_eq_some_iff.1 h).1 (oneOf_nodup id)).1 (h.trans h'.symm)

def IsRoot (a : Arena) (id : Nat) : Prop := id < a.size ∧ id ∉ a.edges

def IsMember (a : Arena) (id : Nat) : Prop := ∃ p, id ∈ (a.node p).merged

theorem IsRoot.not_child {id p : Nat} (h : a.IsRoot id) : id ∉ (a.node p).childIds :=
  fun hp => h.2 (mem_edges hp)

theorem IsRoot.not_isMember {id : Nat} (h : a.IsRoot id) : ¬a.IsMember id := by
  rintro ⟨p, hp⟩
  exact h.not_child (SchemaNode.mem_childIds_of_mem_merged hp)

theorem isMember_iff {p child : Nat} {slot : Slot} (h : (slot, child) ∈ (a.node p).children) :
    a.IsMember child ↔ slot.merges = true := by
  constructor
  · rintro ⟨q, hq⟩
    obtain ⟨slot', hs, hq⟩ := SchemaNode.mem_merged.1 hq
    exact slot_unique h hq ▸ hs
  · intro hs
    exact ⟨p, SchemaNode.mem_merged.2 ⟨slot, hs, h⟩⟩

end Arena

end ApiModel
