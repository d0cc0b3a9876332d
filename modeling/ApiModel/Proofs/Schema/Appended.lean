import ApiModel.Proofs.Schema.Ownership

namespace ApiModel

theorem findSome?_congr {α β : Type} {f g : α → Option β} {l : List α}
    (h : ∀ x ∈ l, f x = g x) : l.findSome? f = l.findSome? g := by
  rw [← List.head?_filterMap, ← List.head?_filterMap, List.filterMap_congr h]

namespace Arena

variable {a b : Arena} {id target : Nat}

def Appended (a b : Arena) : Prop := ∃ more, b.nodes = a.nodes ++ more

theorem map_inlineMembers (a : Arena) (id : Nat) : (a.inlineMembers id).map (·.1) =
    (a.node id).merged.filter fun member => (a.node member).reference.isNone := by
  have hall := List.attach_map_subtype_val (a.node id).merged
  conv_rhs => rw [← hall, List.filter_map]
  rw [inlineMembers, List.filter_map, List.map_map]
  rfl

theorem ownProperties_eq (a : Arena) (id : Nat) : a.ownProperties id =
    OrderedMap.insertAll
      (((a.node id).merged.filter fun member => (a.node member).reference.isNone).foldl
        (fun (acc : OrderedMap String Nat) member => acc.insertAll (a.ownProperties member)) [])
      (a.node id).properties := by
  rw [ownProperties, ← map_inlineMembers, List.foldl_map]

namespace Appended

theorem size_le (h : a.Appended b) : a.size ≤ b.size := by
  obtain ⟨more, hmore⟩ := h
  rw [size, size, hmore, Array.size_append]
  exact Nat.le_add_right _ _

theorem node (h : a.Appended b) (hid : id < a.size) : b.node id = a.node id := by
  obtain ⟨more, hmore⟩ := h
  rw [Arena.node, Arena.node, hmore, Array.getElem?_append_left hid]

theorem ownProperties (h : a.Appended b) (hid : id < a.size) :
    b.ownProperties id = a.ownProperties id := by
  induction hn : a.size - id using Nat.strongRecOn generalizing id with
  | ind n ih =>
    subst hn
    have hmember : ∀ member ∈ (a.node id).merged, id < member ∧ member < a.size :=
      fun member hm => a.child_bounds (SchemaNode.mem_childIds_of_mem_merged hm)
    have hinline : (a.node id).merged.filter (fun member => (b.node member).reference.isNone) =
        (a.node id).merged.filter fun member => (a.node member).reference.isNone :=
      List.filter_congr fun member hm => by rw [h.node (hmember member hm).2]
    rw [ownProperties_eq, ownProperties_eq, h.node hid, hinline]
    congr 1
    refine List.foldl_ext _ _ _ fun acc member hm => ?_
    obtain ⟨hlt, hsize⟩ := hmember member (List.mem_of_mem_filter hm)
    rw [ih (a.size - member) (by omega) hsize rfl]

theorem element? (h : a.Appended b) (hid : id < a.size) : b.element? id = a.element? id := by
  simp only [Arena.element?, h.node hid]

theorem segmentBelow? (h : a.Appended b) {segment : String} {current : Nat}
    (hid : current < a.size) :
    b.segmentBelow? target segment current = a.segmentBelow? target segment current := by
  fun_induction Arena.segmentBelow? a target segment current with
  | case1 segment => exact segmentBelow?_self segment
  | case2 segment current hne element helement ih =>
    rw [segmentBelow?_element hne ((h.element? hid).trans helement)]
    exact ih (element?_bounds helement).2
  | case3 segment current hne helement =>
    rw [Arena.segmentBelow?, if_neg hne]
    split
    · next element hfound =>
      rw [h.element? hid, helement] at hfound
      cases hfound
    · rfl

theorem ownedSegment? (h : a.Appended b) (hid : id < a.size) :
    b.ownedSegment? id target = a.ownedSegment? id target := by
  rw [Arena.ownedSegment?, Arena.ownedSegment?, h.ownProperties hid]
  refine findSome?_congr fun e he => ?_
  obtain ⟨outer, _, hproperty⟩ := mem_ownProperties he
  have hchild := SchemaNode.mem_childIds_of_mem_children (SchemaNode.mem_properties.1 hproperty)
  exact h.segmentBelow? (a.child_bounds hchild).2

end Appended

end Arena

end ApiModel
