import ApiModel.Proofs.Comparison.Walking
import ApiModel.Proofs.Schema.Appended

namespace ApiModel

structure PathItem.Padded (o : Options) (item item' : PathItem) : Prop where
  operations : Inserted (fun op => op.isSelected o = false) item.operations item'.operations
  rest : item' = { item with operations := item'.operations }

structure Document.Padded (o : Options) (d d' : Document) : Prop where
  arena : d.arena.Appended d'.arena
  schemas : Inserted (fun e => e.1 ∉ d.schemas.keys ∧ d.arena.size ≤ e.2 ∧
    (d'.node e.2).extensions.forced ≠ some true) d.schemas d'.schemas
  paths : List.Forall₂ (PathItem.Padded o) d.paths d'.paths
  rest : d' = { d with arena := d'.arena, schemas := d'.schemas, paths := d'.paths }

namespace PathItem.Padded

variable {o : Options} {item item' : PathItem}

theorem path (h : item.Padded o item') : item'.path = item.path := by rw [h.rest]

theorem parameters (h : item.Padded o item') : item'.parameters = item.parameters := by
  rw [h.rest]

theorem servers (h : item.Padded o item') : item'.servers = item.servers := by rw [h.rest]

theorem selected (h : item.Padded o item') : item'.selected o = item.selected o :=
  h.operations.filter_eq fun _ hop => hop

theorem visits (h : item.Padded o item') : item'.visits o = item.visits o := by
  simp only [PathItem.visits, h.selected, h.parameters, h.path]

end PathItem.Padded

namespace OrderedMap

variable {α β : Type} [DecidableEq α]

theorem mem_keys_of_get? {m : OrderedMap α β} {key : α} {value : β}
    (h : m.get? key = some value) : key ∈ m.keys := List.mem_map.2 ⟨_, mem_of_get? h, rfl⟩

theorem get?_inserted {extra : α × β → Prop} {m m' : OrderedMap α β} (h : Inserted extra m m')
    {key : α} (hkey : ∀ e, extra e → e.1 ≠ key) : m'.get? key = m.get? key := by
  induction h with
  | nil => rfl
  | keep e _ ih => rw [get?, get?, ih]
  | insert he _ ih => rw [get?, if_neg (hkey _ he), ih]

end OrderedMap

namespace Document

variable {d d' : Document} {o : Options} {id : Nat} {v : Visit}

theorem linksFrom_last {first location current : String} {seen : List Nat}
    (hid : d.resolve? current = some id) (hnew : id ∉ seen)
    (href : (d.node id).reference = none) :
    d.linksFrom first location seen current = .ok [⟨current, id⟩] := by
  rw [linksFrom]
  split
  · next hnone =>
    rw [hid] at hnone
    cases hnone
  · next found hfound =>
    rw [hid] at hfound
    cases hfound
    rw [dif_neg hnew]
    simp only [href]

theorem linksFrom_next {first location current next : String} {seen : List Nat}
    (hid : d.resolve? current = some id) (hnew : id ∉ seen)
    (href : (d.node id).reference = some next) :
    d.linksFrom first location seen current =
      (d.linksFrom first location (id :: seen) next).map (⟨current, id⟩ :: ·) := by
  rw [linksFrom]
  split
  · next hnone =>
    rw [hid] at hnone
    cases hnone
  · next found hfound =>
    rw [hid] at hfound
    cases hfound
    rw [dif_neg hnew]
    simp only [href]

namespace Padded

theorem node (h : d.Padded o d') (hid : id < d.arena.size) : d'.node id = d.node id :=
  h.arena.node hid

theorem resolve? (h : d.Padded o d') {reference : String}
    (hid : d.resolve? reference = some id) : d'.resolve? reference = some id := by
  obtain ⟨name, hname, hget⟩ := Option.bind_eq_some_iff.1 hid
  have hkey := OrderedMap.mem_keys_of_get? hget
  rw [Document.resolve?, hname, Option.bind_some, ← hget]
  exact OrderedMap.get?_inserted h.schemas fun e he hname => he.1 (hname ▸ hkey)

theorem follow (h : d.Padded o d') (hv : v.id < d.arena.size) :
    Agrees (fun _ => False) (d.follow v) (d'.follow v) := by
  unfold Document.follow
  rw [h.node hv]
  cases href : (d.node v.id).reference with
  | none =>
    simp only [href]
    exact .of_eq rfl
  | some reference =>
    cases htarget : d.resolve? reference with
    | none =>
      simp only [href, htarget]
      exact False.elim
    | some target =>
      simp only [href, htarget, h.resolve? htarget]
      exact .of_eq rfl

theorem visitAll (h : d.Padded o d') (hd : d.Rooted) {visits : List Visit}
    (hvisits : ∀ v ∈ visits, v.id < d.arena.size) (r : Reachability) :
    Simulates Eq (d.visitAll visits r) (d'.visitAll visits r) := by
  have hsize : ∀ id, id < d.arena.size → (id < d'.arena.size ↔ id < d.arena.size) :=
    fun id hid => ⟨fun _ => hid, fun _ => Nat.lt_of_lt_of_le hid h.arena.size_le⟩
  refine (visitAll_agrees hsize (fun v hv => h.follow hv) ?_ visits r hvisits).simulates
  intro v next entry hf w hw
  have hleads := ((follow_meets hd v).of_ok hf).2.1 w.id
  exact hd.lt_of_leads (hleads.1 (List.mem_map.2 ⟨w, hw, rfl⟩))

theorem linksFrom (h : d.Padded o d') (hd : d.Rooted) (first location : String) (seen : List Nat)
    (current : String) : Simulates Eq (d.linksFrom first location seen current)
      (d'.linksFrom first location seen current) := by
  fun_induction Document.linksFrom d first location seen current with
  | case1 => exact .error _
  | case2 => exact .error _
  | case3 seen current id hid hnew href =>
    rw [← h.node (hd.resolve? hid).1] at href
    exact .of_eq (linksFrom_last (h.resolve? hid) hnew href)
  | case4 seen current id hid hnew next href ih =>
    rw [← h.node (hd.resolve? hid).1] at href
    rw [linksFrom_next (h.resolve? hid) hnew href]
    exact ih.map_same _

theorem links (h : d.Padded o d') (hd : d.Rooted) (reference location : String) :
    Simulates Eq (d.links reference location) (d'.links reference location) :=
  h.linksFrom hd reference location [] reference

theorem resolveChain (h : d.Padded o d') (hd : d.Rooted) (reference location : String) :
    Simulates Eq (d.resolveChain reference location) (d'.resolveChain reference location) :=
  (h.links hd reference location).bind_same fun _ => .refl _

theorem keepForced (h : d.Padded o d') (hd : d.Rooted) {e : String × Nat} (he : e ∈ d.schemas)
    (r : Reachability) : Simulates Eq (d.keepForced o r e) (d'.keepForced o r e) := by
  have hid : e.2 < d.arena.size := (hd.schemas e he).1
  have hvisit : ∀ r, Simulates Eq (d.visitAll [⟨e.2, [e.1], false⟩] r)
      (d'.visitAll [⟨e.2, [e.1], false⟩] r) := fun r => h.visitAll hd (by simpa using hid) r
  have hsame : d'.isForced o e.2 = d.isForced o e.2 := by rw [isForced, isForced, h.node hid]
  simp only [Document.keepForced, hsame, h.node hid]
  cases d.isForced o e.2 with
  | false => exact .refl _
  | true =>
    cases (d.node e.2).reference with
    | none => exact hvisit r
    | some reference => exact (h.resolveChain hd _ _).bind_same fun _ => hvisit _

theorem keepForced_extra (hall : o.generateAllNamedSchemas = false) {e : String × Nat}
    (he : (d'.node e.2).extensions.forced ≠ some true) (r : Reachability) :
    d'.keepForced o r e = .ok r := by
  simp [Document.keepForced, isForced, hall, he]
  rfl

theorem visits (h : d.Padded o d') :
    d'.paths.flatMap (·.visits o) = d.paths.flatMap (·.visits o) := by
  have hpaths := h.paths
  generalize d.paths = items at hpaths
  generalize d'.paths = items' at hpaths
  induction hpaths with
  | nil => rfl
  | cons hitem _ ih => rw [List.flatMap_cons, List.flatMap_cons, hitem.visits, ih]

theorem reachable (h : d.Padded o d') (hd : d.Rooted)
    (hall : o.generateAllNamedSchemas = false) :
    Simulates Eq (d.reachable o) (d'.reachable o) := by
  unfold Document.reachable
  rw [h.visits]
  refine (h.visitAll hd (fun v hv => ?_) {}).bind_same fun r => ?_
  · obtain ⟨item, hitem, hv⟩ := List.mem_flatMap.1 hv
    obtain ⟨op, hop, hselected, huse⟩ :=
      mem_targets_pathItem.1 (List.mem_map.2 ⟨v, hv, rfl⟩ : v.id ∈ targets (item.visits o))
    refine hd.lt_of_reached (o := o) (.entry ?_)
    rcases huse with hu | ⟨p, hp, hs⟩
    · exact .used hitem hop hselected hu
    · exact .shared hitem hop hselected hp hs
  · refine h.schemas.foldlM rfl (fun e he r r' heq => ?_) fun e he r r' heq => ?_
    · exact heq ▸ h.keepForced hd he r
    · exact ⟨r', keepForced_extra hall he.2.2 r', heq⟩

end Padded

end Document

end ApiModel
