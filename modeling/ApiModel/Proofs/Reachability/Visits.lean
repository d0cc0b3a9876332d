import ApiModel.Proofs.Reachability.Closure

namespace ApiModel

def targets (visits : List Visit) : List Nat := visits.map (·.id)

@[simp] theorem targets_nil : targets [] = [] := rfl

@[simp] theorem targets_append (v w : List Visit) : targets (v ++ w) = targets v ++ targets w :=
  List.map_append

theorem targets_flatMap {α : Type} (l : List α) (f : α → List Visit) :
    targets (l.flatMap f) = l.flatMap fun a => targets (f a) := List.map_flatMap

@[simp] theorem targets_parameterVisits (ps : List Parameter) (path : List String) :
    targets (parameterVisits ps path) = ps.filterMap (·.schema) := by
  simp only [targets, parameterVisits, List.map_filterMap, Option.map_map]
  exact List.filterMap_congr fun p _ => Option.map_id'

@[simp] theorem targets_contentVisits (c : Content) (path : List String) :
    targets (contentVisits c path) = c.filterMap Prod.snd := by
  simp only [targets, contentVisits, List.map_filterMap, Option.map_map]
  exact List.filterMap_congr fun e _ => Option.map_id'

@[simp] theorem targets_headerVisits (hs : OrderedMap String Header) (path : List String) :
    targets (headerVisits hs path) = hs.filterMap (·.2.schema) := by
  simp only [targets, headerVisits, List.map_filterMap, Option.map_map]
  exact List.filterMap_congr fun e _ => Option.map_id'

theorem mem_targets_operation {op : Operation} {path : String} {id : Nat} :
    id ∈ targets (op.visits path) ↔ op.Uses id := by
  simp only [Operation.visits, targets_append, targets_flatMap, targets_parameterVisits,
    targets_contentVisits, targets_headerVisits, List.mem_append, List.mem_flatMap,
    List.mem_filterMap, Option.mem_toList]
  constructor
  · rintro ((⟨p, hp, hs⟩ | ⟨body, hb, ⟨media, i⟩, hm, rfl⟩) | ⟨⟨code, r⟩, hr, h | h⟩)
    · exact .parameter hp hs
    · exact .request hb hm
    · obtain ⟨⟨media, i⟩, hm, rfl⟩ := h
      exact .response hr hm
    · obtain ⟨⟨name, h⟩, hm, hs⟩ := h
      exact .header hr hm hs
  · rintro (⟨hp, hs⟩ | ⟨hb, hm⟩ | ⟨hr, hm⟩ | ⟨hr, hm, hs⟩)
    · exact .inl (.inl ⟨_, hp, hs⟩)
    · exact .inl (.inr ⟨_, hb, _, hm, rfl⟩)
    · exact .inr ⟨_, hr, .inl ⟨_, hm, rfl⟩⟩
    · exact .inr ⟨_, hr, .inr ⟨_, hm, hs⟩⟩

theorem mem_targets_pathItem {item : PathItem} {o : Options} {id : Nat} :
    id ∈ targets (item.visits o) ↔
      ∃ op ∈ item.operations, op.isSelected o = true ∧
        (op.Uses id ∨ ∃ p ∈ item.parameters, p.schema = some id) := by
  have hsel : ∀ op, op ∈ item.selected o ↔ op ∈ item.operations ∧ op.isSelected o = true :=
    fun op => List.mem_filter
  unfold PathItem.visits
  split
  · next hnil =>
    rw [hnil] at hsel
    simp only [targets_nil, List.not_mem_nil, false_iff, not_exists, not_and] at hsel ⊢
    intro op hop hs
    exact absurd hs (by simpa [hop] using hsel op)
  · next hne =>
    obtain ⟨first, hfirst⟩ := List.exists_mem_of_ne_nil _ hne
    simp only [targets_append, targets_flatMap, targets_parameterVisits, List.mem_append,
      List.mem_filterMap, List.mem_flatMap, mem_targets_operation]
    constructor
    · rintro (hp | ⟨op, hop, hu⟩)
      · obtain ⟨hmem, hs⟩ := (hsel first).1 hfirst
        exact ⟨first, hmem, hs, .inr hp⟩
      · obtain ⟨hmem, hs⟩ := (hsel op).1 hop
        exact ⟨op, hmem, hs, .inl hu⟩
    · rintro ⟨op, hmem, hs, hu | hp⟩
      · exact .inr ⟨op, (hsel op).2 ⟨hmem, hs⟩, hu⟩
      · exact .inl hp

theorem dissolves_operation {op : Operation} {path : String} {v : Visit} (h : v ∈ op.visits path) :
    v.dissolves = false := by
  simp only [Operation.visits, parameterVisits, contentVisits, headerVisits, List.mem_append,
    List.mem_flatMap, List.mem_filterMap, Option.map_eq_some_iff] at h
  rcases h with (⟨p, _, id, _, rfl⟩ | ⟨body, _, e, _, id, _, rfl⟩) | ⟨r, _, h | h⟩
  · rfl
  · rfl
  · obtain ⟨e, _, id, _, rfl⟩ := h
    rfl
  · obtain ⟨e, _, id, _, rfl⟩ := h
    rfl

theorem dissolves_pathItem {item : PathItem} {o : Options} {v : Visit} (h : v ∈ item.visits o) :
    v.dissolves = false := by
  unfold PathItem.visits at h
  split at h
  · cases h
  · rcases List.mem_append.1 h with h | h
    · obtain ⟨p, _, hv⟩ := List.mem_filterMap.1 h
      obtain ⟨id, _, rfl⟩ := Option.map_eq_some_iff.1 hv
      rfl
    · obtain ⟨op, _, hv⟩ := List.mem_flatMap.1 h
      exact dissolves_operation hv

namespace Document

theorem mem_targets_childVisits {n : SchemaNode} {path : List String} {id : Nat} :
    id ∈ targets (childVisits n path) ↔ id ∈ n.subschemas := by
  have hone : (n.oneOf.zipIdx.map fun e => e.1) = n.oneOf := List.zipIdx_map_fst 0 n.oneOf
  simp only [targets, childVisits, SchemaNode.subschemas, SchemaNode.merged, OrderedMap.values,
    List.map_append, List.map_map, Function.comp_def, List.mem_append, hone, List.map_id']
  tauto

theorem slot_of_childVisits {n : SchemaNode} {path : List String} {v : Visit}
    (h : v ∈ childVisits n path) :
    ∃ slot, (slot, v.id) ∈ n.children ∧ v.dissolves = slot.merges := by
  simp only [childVisits, List.mem_append, List.mem_map, Option.mem_toList] at h
  rcases h with ((((⟨id, hid, rfl⟩ | ⟨id, hid, rfl⟩) | ⟨e, he, rfl⟩) | ⟨id, hid, rfl⟩) |
    ⟨id, hid, rfl⟩) | ⟨e, he, rfl⟩
  · exact ⟨_, SchemaNode.mem_children_of_child? hid, rfl⟩
  · exact ⟨_, SchemaNode.mem_children_of_child? hid, rfl⟩
  · obtain ⟨place, hp⟩ := SchemaNode.mem_oneOf.1 (List.fst_mem_of_mem_zipIdx he)
    exact ⟨_, hp, rfl⟩
  · obtain ⟨slot, hs, hmem⟩ := SchemaNode.mem_merged.1 hid
    exact ⟨slot, hmem, hs.symm⟩
  · exact ⟨_, SchemaNode.mem_children_of_child? hid, rfl⟩
  · exact ⟨_, SchemaNode.mem_properties.1 he, rfl⟩

def Marked (d : Document) (v : Visit) : Prop := v.dissolves = true ↔ d.arena.IsMember v.id

theorem marked_childVisits {d : Document} {id : Nat} {path : List String} {v : Visit}
    (h : v ∈ childVisits (d.node id) path) : d.Marked v := by
  obtain ⟨slot, hmem, hs⟩ := slot_of_childVisits h
  rw [Marked, hs, Arena.isMember_iff hmem]

theorem marked_of_isRoot {d : Document} {v : Visit} (hv : v.dissolves = false)
    (h : d.arena.IsRoot v.id) : d.Marked v := by
  simp only [Marked, hv, Bool.false_eq_true, false_iff]
  exact h.not_isMember

def EntryOf (d : Document) (v : Visit) (entry : Option ReachableSchema) : Prop :=
  match entry with
  | none => v.dissolves = true ∨ (d.node v.id).reference.isSome = true
  | some e => v.dissolves = false ∧ (d.node v.id).reference = none ∧ e.id = v.id ∧
      classify (d.node v.id) = .ok e.kind

theorem classify_expected (n : SchemaNode) :
    Meets (classify n) (fun _ => True) ConversionError.Expected := by
  have hnumber : ∀ fallback, Meets (n.numberClass fallback) (fun _ => True)
      ConversionError.Expected := by
    intro fallback
    unfold SchemaNode.numberClass
    split <;> trivial
  unfold classify
  split
  · trivial
  · split
    · trivial
    · split
      · split <;> trivial
      · trivial
      · exact hnumber _
      · exact hnumber _
      · trivial
      · trivial

theorem follow_meets {d : Document} (hd : d.Rooted) (v : Visit) :
    Meets (d.follow v)
      (fun x => d.Opens v.id ∧ (∀ id, id ∈ targets x.1 ↔ d.Leads v.id id) ∧
        (∀ w ∈ x.1, d.Marked w) ∧ d.EntryOf v x.2)
      fun e => e.Expected ∧ ¬d.Opens v.id := by
  unfold follow
  simp only
  cases href : (d.node v.id).reference with
  | some text =>
    simp only
    rw [opens_of_reference href]
    cases htarget : d.resolve? text with
    | none => exact ⟨trivial, by simp⟩
    | some target =>
      refine ⟨⟨target, rfl⟩, fun id => ?_, fun w hw => ?_, .inr (by rw [href]; rfl)⟩
      · rw [leads_of_reference href htarget]
        simp [targets]
      · rw [List.mem_singleton] at hw
        subst hw
        exact marked_of_isRoot rfl (hd.resolve? htarget)
  | none =>
    simp only
    rw [opens_of_no_reference href]
    have hexpected := classify_expected (d.node v.id)
    cases hkind : classify (d.node v.id) with
    | error e =>
      rw [hkind] at hexpected
      exact ⟨hexpected, by simp⟩
    | ok kind =>
      refine ⟨⟨kind, rfl⟩, fun id => ?_, fun w hw => marked_childVisits hw, ?_⟩
      · rw [mem_targets_childVisits, leads_of_no_reference href]
      · cases hv : v.dissolves with
        | true => exact .inl hv
        | false => exact ⟨hv, href, rfl, hkind⟩

end Document

end ApiModel
