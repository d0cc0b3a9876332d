import ApiModel.Proofs.Document.Distinct
import ApiModel.Proofs.Document.Pointers
import ApiModel.Proofs.Outcome

namespace ApiModel

namespace Slot

def keys : Slot → Place
  | .items => ["items"]
  | .values => ["additionalProperties"]
  | .property name => ["properties", name]
  | .allOf place => ["allOf", toString place]
  | .anyOf place => ["anyOf", toString place]
  | .oneOf place => ["oneOf", toString place]
  | .not => ["not"]

theorem pointer_keys (p : Place) (slot : Slot) :
    Place.pointer (p ++ slot.keys) = p.pointer ++ slot.pointer := by
  cases slot <;> simp only [keys, Place.pointer, List.foldl_append, List.foldl_cons,
    List.foldl_nil, String.append_assoc, escapeSegment_toString] <;> rfl

theorem keys_prefix_inj {slot slot' : Slot} (h : slot.keys <+: slot'.keys) : slot = slot' := by
  -- two slots of one keyword are told apart by the name or number that comes next
  cases slot <;> cases slot' <;>
    first
    | rfl
    | exact absurd (List.cons_prefix_cons.1 h).1 (by decide)
    | obtain ⟨hnext, -⟩ := List.cons_prefix_cons.1 (List.cons_prefix_cons.1 h).2
  case property.property => rw [hnext]
  case allOf.allOf | anyOf.anyOf | oneOf.oneOf => rw [Text.toString_nat_injective hnext]

theorem disjoint_under {slot slot' : Slot} (h : slot ≠ slot') (p : Place) :
    Disjoint (Place.Under (p ++ slot.keys)) (Place.Under (p ++ slot'.keys)) := by
  refine Place.disjoint_under ?_ ?_ <;> rw [List.prefix_append_right_inj]
  · exact fun hkeys => h (keys_prefix_inj hkeys)
  · exact fun hkeys => h (keys_prefix_inj hkeys).symm

end Slot

namespace SchemaObject

inductive Distinct : SchemaObject → Prop
  | mk {keywords : Keywords} {extensions : OrderedMap String Json}
      {parts : List (Slot × SchemaObject)} :
      (parts.map Prod.fst).Nodup → (∀ part ∈ parts, Distinct part.2) →
        Distinct (.mk keywords extensions parts)

mutual

def sites (p : Place) : SchemaObject → List Place
  | .mk _ _ parts => p :: partSites p parts

def partSites (p : Place) : List (Slot × SchemaObject) → List Place
  | [] => []
  | (slot, s) :: rest => s.sites (p ++ slot.keys) ++ partSites p rest

end

mutual

theorem locations_layOut (p : Place) (base : Nat) (s : SchemaObject) :
    (layOut p.pointer base s).map (·.location) = (s.sites p).map Place.pointer := by
  match s with
  | .mk _ _ parts =>
    rw [layOut, sites, List.map_cons, List.map_cons, locations_layOutParts]

theorem locations_layOutParts (p : Place) (base : Nat) (parts : List (Slot × SchemaObject)) :
    (layOutParts p.pointer base parts).map (·.location) =
      (partSites p parts).map Place.pointer := by
  match parts with
  | [] => rfl
  | (slot, s) :: rest =>
    rw [layOutParts, partSites, List.map_append, List.map_append, ← Slot.pointer_keys,
      locations_layOut, locations_layOutParts]

end

mutual

theorem sites_under {p q : Place} {s : SchemaObject} (h : q ∈ s.sites p) : q ∈ p.Under := by
  match s with
  | .mk _ _ parts =>
    rw [sites] at h
    rcases List.mem_cons.1 h with rfl | h
    · exact Place.self_mem_under q
    · obtain ⟨part, -, hq⟩ := partSites_under h
      exact Place.under_append p _ hq

theorem partSites_under {p q : Place} {parts : List (Slot × SchemaObject)}
    (h : q ∈ partSites p parts) : ∃ part ∈ parts, q ∈ Place.Under (p ++ part.1.keys) := by
  match parts with
  | [] =>
    rw [partSites] at h
    cases h
  | (slot, s) :: rest =>
    rw [partSites] at h
    rcases List.mem_append.1 h with h | h
    · exact ⟨_, List.mem_cons_self, sites_under h⟩
    · obtain ⟨part, hpart, hq⟩ := partSites_under h
      exact ⟨part, List.mem_cons_of_mem _ hpart, hq⟩

end

theorem not_mem_partSites (p : Place) (parts : List (Slot × SchemaObject)) :
    p ∉ partSites p parts := by
  intro h
  obtain ⟨part, -, hp⟩ := partSites_under h
  have hlength := List.IsPrefix.length_le hp
  have hpos : 0 < part.1.keys.length := by cases part.1 <;> exact Nat.succ_pos _
  rw [List.length_append] at hlength
  omega

mutual

theorem Distinct.nodup_sites {s : SchemaObject} (h : s.Distinct) (p : Place) :
    (s.sites p).Nodup := by
  match s, h with
  | .mk _ _ parts, .mk hslots hparts =>
    rw [sites, List.nodup_cons]
    exact ⟨not_mem_partSites p parts, nodup_partSites hslots hparts p⟩

theorem nodup_partSites {parts : List (Slot × SchemaObject)} (hslots : (parts.map Prod.fst).Nodup)
    (hparts : ∀ part ∈ parts, part.2.Distinct) (p : Place) : (partSites p parts).Nodup := by
  match parts with
  | [] =>
    rw [partSites]
    exact .nil
  | (slot, s) :: rest =>
    obtain ⟨hslot, hslots⟩ := List.nodup_cons.1 hslots
    obtain ⟨hs, hrest⟩ := List.forall_mem_cons.1 hparts
    rw [partSites, List.nodup_append']
    refine ⟨hs.nodup_sites _, nodup_partSites hslots hrest p, fun q hq hq' => ?_⟩
    obtain ⟨part, hpart, hunder⟩ := partSites_under hq'
    have hne : slot ≠ part.1 := fun he => hslot (he ▸ List.mem_map.2 ⟨part, hpart, rfl⟩)
    exact Set.disjoint_left.1 (Slot.disjoint_under hne p) (sites_under hq) hunder

end

theorem slots_places (base : Nat) (parts : List (Slot × SchemaObject)) :
    (places base parts).map Prod.fst = parts.map Prod.fst := by
  induction parts generalizing base with
  | nil => rfl
  | cons part parts ih =>
    rw [places, List.map_cons, List.map_cons, ih]

mutual

theorem Distinct.slots_layOut {s : SchemaObject} (h : s.Distinct) (location : String)
    (base : Nat) : ∀ n ∈ layOut location base s, (n.children.map Prod.fst).Nodup := by
  match s, h with
  | .mk _ _ parts, .mk hslots hparts =>
    rw [layOut]
    refine List.forall_mem_cons.2 ⟨?_, slots_layOutParts hparts location (base + 1)⟩
    rwa [slots_places]

theorem slots_layOutParts {parts : List (Slot × SchemaObject)}
    (hparts : ∀ part ∈ parts, part.2.Distinct) (location : String) (base : Nat) :
    ∀ n ∈ layOutParts location base parts, (n.children.map Prod.fst).Nodup := by
  match parts with
  | [] =>
    rw [layOutParts]
    exact fun n hn => nomatch hn
  | (slot, s) :: rest =>
    obtain ⟨hs, hrest⟩ := List.forall_mem_cons.1 hparts
    rw [layOutParts]
    exact List.forall_mem_append.2
      ⟨hs.slots_layOut _ base, slots_layOutParts hrest location (base + s.size)⟩

end

end SchemaObject

namespace Arena

variable {a : Arena}

def Distinct (a : Arena) : Prop := ∀ n ∈ a.nodes, (n.children.map Prod.fst).Nodup

theorem Distinct.intern (h : a.Distinct) {s : SchemaObject} (hs : s.Distinct)
    (location : String) : (a.intern location s).Distinct := by
  intro n hn
  rcases Array.mem_append.1 hn with hn | hn
  · exact h n hn
  · exact hs.slots_layOut location _ n (List.mem_toArray.1 hn)

theorem Distinct.setComponent (h : a.Distinct) (id : Nat) (name : Option String) :
    (a.setComponent id name).Distinct := by
  intro n hn
  obtain ⟨place, hplace, rfl⟩ := Array.mem_iff_getElem.1 hn
  simp only [Arena.setComponent, Array.size_modify] at hplace
  have hnode := h _ (Array.getElem_mem hplace)
  simp only [Arena.setComponent, Array.getElem_modify]
  split
  · exact hnode
  · exact hnode

theorem Distinct.slots (h : a.Distinct) (id : Nat) :
    ((a.node id).children.map Prod.fst).Nodup := by
  unfold node
  cases hn : a.nodes[id]? with
  | none => exact List.nodup_nil
  | some n => exact h n (Array.mem_of_getElem? hn)

theorem Distinct.properties (h : a.Distinct) (id : Nat) :
    (a.node id).properties.keys.Nodup := by
  rw [OrderedMap.keys, List.Nodup, List.pairwise_map]
  refine List.pairwise_filterMap.2 ((List.pairwise_map.1 (h.slots id)).imp ?_)
  rintro ⟨slot, i⟩ ⟨slot', j⟩ hne e he e' he'
  cases slot <;> simp at he
  cases slot' <;> simp at he'
  subst he he'
  exact fun hnames => hne (congrArg Slot.property hnames)

end Arena

end ApiModel
