import ApiModel.Document.Load
import ApiModel.Proofs.Schema.Slot

namespace ApiModel

def Parameter.Rooted (a : Arena) (p : Parameter) : Prop := ∀ id, p.schema = some id → a.IsRoot id

def Header.Rooted (a : Arena) (h : Header) : Prop := ∀ id, h.schema = some id → a.IsRoot id

def Content.Rooted (a : Arena) (c : Content) : Prop :=
  ∀ entry ∈ c, ∀ id, entry.2 = some id → a.IsRoot id

def RequestBody.Rooted (a : Arena) (b : RequestBody) : Prop := Content.Rooted a b.content

structure Response.Rooted (a : Arena) (r : Response) : Prop where
  content : Content.Rooted a r.content
  headers : ∀ entry ∈ r.headers, entry.2.Rooted a

structure Operation.Rooted (a : Arena) (op : Operation) : Prop where
  parameters : ∀ p ∈ op.parameters, p.Rooted a
  requestBody : ∀ body, op.requestBody = some body → body.Rooted a
  responses : ∀ entry ∈ op.responses, entry.2.Rooted a

structure PathItem.Rooted (a : Arena) (item : PathItem) : Prop where
  parameters : ∀ p ∈ item.parameters, p.Rooted a
  operations : ∀ op ∈ item.operations, op.Rooted a

structure Document.Rooted (d : Document) : Prop where
  schemas : ∀ entry ∈ d.schemas, d.arena.IsRoot entry.2
  distinct : d.schemas.values.Nodup
  paths : ∀ item ∈ d.paths, item.Rooted d.arena

namespace Arena

structure Grows (a b : Arena) : Prop where
  size_le : a.size ≤ b.size
  isRoot : ∀ {id}, a.IsRoot id → b.IsRoot id

theorem Grows.refl (a : Arena) : a.Grows a := ⟨Nat.le_refl _, id⟩

theorem Grows.trans {a b c : Arena} (h : a.Grows b) (h' : b.Grows c) : a.Grows c :=
  ⟨Nat.le_trans h.size_le h'.size_le, fun hid => h'.isRoot (h.isRoot hid)⟩

theorem size_intern (a : Arena) (location : String) (s : SchemaObject) :
    (a.intern location s).size = a.size + s.size := by
  simp only [intern, size, Array.size_append, List.size_toArray, SchemaObject.length_layOut]

theorem edges_intern (a : Arena) (location : String) (s : SchemaObject) :
    (a.intern location s).edges =
      a.edges ++ (s.layOut location a.size).flatMap SchemaNode.childIds := by
  simp only [intern, edges, size, Array.toList_append, List.flatMap_append]

theorem grows_intern (a : Arena) (location : String) (s : SchemaObject) :
    a.Grows (a.intern location s) := by
  refine ⟨by rw [size_intern]; omega, fun {id} hid => ⟨?_, ?_⟩⟩
  · rw [size_intern]
    have := hid.1
    omega
  · rw [edges_intern, List.mem_append]
    rintro (h | h)
    · exact hid.2 h
    · have hs := SchemaObject.childIds_layOut location a.size s
      have hle := (List.mem_range'_1.1 (hs.subset (List.mem_cons_of_mem _ h))).1
      have := hid.1
      omega

theorem isRoot_intern (a : Arena) (location : String) (s : SchemaObject) :
    (a.intern location s).IsRoot a.size := by
  have hpos := s.size_pos
  refine ⟨by rw [size_intern]; omega, ?_⟩
  rw [edges_intern, List.mem_append]
  rintro (h | h)
  · have := a.lt_of_mem_edges h
    omega
  · have hs := SchemaObject.childIds_layOut location a.size s
    exact (List.nodup_cons.1 (hs.nodup_iff.2 List.nodup_range')).1 h

theorem size_setComponent (a : Arena) (id : Nat) (name : Option String) :
    (a.setComponent id name).size = a.size := by
  simp only [setComponent, size, Array.size_modify]

theorem childIds_setComponent (a : Arena) (id : Nat) (name : Option String) :
    (a.setComponent id name).nodes.toList.map SchemaNode.childIds =
      a.nodes.toList.map SchemaNode.childIds := by
  refine List.ext_getElem? fun i => ?_
  simp only [setComponent, List.getElem?_map, Array.getElem?_toList, Array.getElem?_modify]
  split
  · cases a.nodes[i]? <;> rfl
  · rfl

theorem isRoot_setComponent {a : Arena} {id i : Nat} {name : Option String} :
    (a.setComponent id name).IsRoot i ↔ a.IsRoot i := by
  have h : (a.setComponent id name).edges = a.edges := by
    rw [edges, List.flatMap_def, childIds_setComponent, ← List.flatMap_def, edges]
  rw [IsRoot, IsRoot, size_setComponent, h]

end Arena

section

variable {a b : Arena}

theorem Parameter.Rooted.mono {p : Parameter} (h : p.Rooted a) (hab : a.Grows b) : p.Rooted b :=
  fun id hid => hab.isRoot (h id hid)

theorem Header.Rooted.mono {h : Header} (hh : h.Rooted a) (hab : a.Grows b) : h.Rooted b :=
  fun id hid => hab.isRoot (hh id hid)

theorem Content.Rooted.mono {c : Content} (h : Content.Rooted a c) (hab : a.Grows b) :
    Content.Rooted b c := fun entry he id hid => hab.isRoot (h entry he id hid)

theorem RequestBody.Rooted.mono {body : RequestBody} (h : body.Rooted a) (hab : a.Grows b) :
    body.Rooted b := Content.Rooted.mono h hab

theorem Response.Rooted.mono {r : Response} (h : r.Rooted a) (hab : a.Grows b) : r.Rooted b :=
  ⟨h.content.mono hab, fun entry he => (h.headers entry he).mono hab⟩

theorem Operation.Rooted.mono {op : Operation} (h : op.Rooted a) (hab : a.Grows b) :
    op.Rooted b :=
  ⟨fun p hp => (h.parameters p hp).mono hab, fun body hb => (h.requestBody body hb).mono hab,
    fun entry he => (h.responses entry he).mono hab⟩

theorem PathItem.Rooted.mono {item : PathItem} (h : item.Rooted a) (hab : a.Grows b) :
    item.Rooted b :=
  ⟨fun p hp => (h.parameters p hp).mono hab, fun op hop => (h.operations op hop).mono hab⟩

end

structure Loading.Rooted (l : Loading) : Prop where
  parameters : ∀ entry ∈ l.parameters, entry.2.Rooted l.arena
  requestBodies : ∀ entry ∈ l.requestBodies, entry.2.Rooted l.arena
  responses : ∀ entry ∈ l.responses, entry.2.Rooted l.arena
  headers : ∀ entry ∈ l.headers, entry.2.Rooted l.arena

structure Loading.Yields {α : Type} (l : Loading) (m : Loader α) (good : Arena → α → Prop) :
    Prop where
  rooted : (m l).2.Rooted
  grows : l.arena.Grows (m l).2.arena
  result : good (m l).2.arena (m l).1

namespace Loading.Yields

variable {α β : Type} {l : Loading} {good : Arena → α → Prop}

theorem pure {x : α} (hl : l.Rooted) (h : good l.arena x) :
    l.Yields (Pure.pure x : Loader α) good :=
  ⟨hl, .refl _, h⟩

theorem bind {m : Loader α} {f : α → Loader β} {good' : Arena → β → Prop} (h : l.Yields m good)
    (hf : ∀ x (l' : Loading), l'.Rooted → l.arena.Grows l'.arena → good l'.arena x →
      l'.Yields (f x) good') :
    l.Yields (m >>= f) good' := by
  have h' := hf (m l).1 (m l).2 h.rooted h.grows h.result
  exact ⟨h'.rooted, h.grows.trans h'.grows, h'.result⟩

theorem weaken {m : Loader α} {good' : Arena → α → Prop} (h : l.Yields m good)
    (hg : ∀ a x, good a x → good' a x) : l.Yields m good' :=
  ⟨h.rooted, h.grows, hg _ _ h.result⟩

theorem of_eq {m m' : Loader α} (heq : m l = m' l) (h : l.Yields m' good) : l.Yields m good :=
  ⟨heq ▸ h.rooted, heq ▸ h.grows, heq ▸ h.result⟩

theorem mapM {f : α → Loader β} {xs : List α} (good : Arena → β → Prop) (hl : l.Rooted)
    (mono : ∀ {a b x}, a.Grows b → good a x → good b x)
    (h : ∀ x ∈ xs, ∀ l' : Loading, l'.Rooted → l'.Yields (f x) good) :
    l.Yields (xs.mapM f) fun a ys => ∀ y ∈ ys, good a y := by
  induction xs generalizing l with
  | nil => exact pure hl (by simp)
  | cons x xs ih =>
    rw [List.mapM_cons]
    refine (h x List.mem_cons_self l hl).bind fun y l' hl' _ hy => ?_
    refine (ih hl' fun x hx => h x (List.mem_cons_of_mem _ hx)).bind fun ys l'' hl'' hg hys => ?_
    refine pure hl'' fun z hz => ?_
    rcases List.mem_cons.1 hz with rfl | hz
    · exact mono hg hy
    · exact hys z hz

theorem filterMapM {f : α → Loader (Option β)} {xs : List α} (good : Arena → β → Prop)
    (hl : l.Rooted) (mono : ∀ {a b x}, a.Grows b → good a x → good b x)
    (h : ∀ x ∈ xs, ∀ l' : Loading, l'.Rooted →
      l'.Yields (f x) fun a y => ∀ z, y = some z → good a z) :
    l.Yields (xs.filterMapM f) fun a ys => ∀ y ∈ ys, good a y := by
  induction xs generalizing l with
  | nil => exact pure hl (by simp)
  | cons x xs ih =>
    rw [List.filterMapM_cons]
    refine (h x List.mem_cons_self l hl).bind fun y l' hl' _ hy => ?_
    have ih := @ih l' hl' fun x hx => h x (List.mem_cons_of_mem _ hx)
    cases y with
    | none => exact ih
    | some z =>
      refine ih.bind fun ys l'' hl'' hg hys => ?_
      refine pure hl'' fun w hw => ?_
      rcases List.mem_cons.1 hw with rfl | hw
      · exact mono hg (hy _ rfl)
      · exact hys w hw

theorem forM {f : α → Loader Unit} {xs : List α} (hl : l.Rooted)
    (h : ∀ x ∈ xs, ∀ l' : Loading, l'.Rooted → l'.Yields (f x) fun _ _ => True) :
    l.Yields (xs.forM f) fun _ _ => True := by
  induction xs generalizing l with
  | nil => exact pure hl trivial
  | cons x xs ih =>
    refine (h x List.mem_cons_self l hl).bind fun _ l' hl' _ _ => ?_
    exact ih hl' fun x hx => h x (List.mem_cons_of_mem _ hx)

end Loading.Yields

end ApiModel
