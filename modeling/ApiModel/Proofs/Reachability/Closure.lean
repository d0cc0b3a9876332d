import ApiModel.Proofs.Document.Rooted
import ApiModel.Proofs.Outcome
import ApiModel.Reachability
/-!
The schemas that a client can meet, as the least set that holds the entry points and follows
references and parts.
-/

namespace ApiModel

def SchemaNode.subschemas (n : SchemaNode) : List Nat :=
  n.items.toList ++ n.values.toList ++ n.oneOf ++ n.allOf ++ n.anyOf ++ n.not.toList ++
    OrderedMap.values n.properties

inductive Operation.Uses (op : Operation) : Nat → Prop
  | parameter {p : Parameter} {id : Nat} :
      p ∈ op.parameters → p.schema = some id → op.Uses id
  | request {body : RequestBody} {media : String} {id : Nat} :
      op.requestBody = some body → (media, some id) ∈ body.content → op.Uses id
  | response {code media : String} {r : Response} {id : Nat} :
      (code, r) ∈ op.responses → (media, some id) ∈ r.content → op.Uses id
  | header {code name : String} {r : Response} {h : Header} {id : Nat} :
      (code, r) ∈ op.responses → (name, h) ∈ r.headers → h.schema = some id → op.Uses id

namespace Document

inductive EntryPoint (d : Document) (o : Options) : Nat → Prop
  | shared {item : PathItem} {op : Operation} {p : Parameter} {id : Nat} :
      item ∈ d.paths → op ∈ item.operations → op.isSelected o = true →
        p ∈ item.parameters → p.schema = some id → d.EntryPoint o id
  | used {item : PathItem} {op : Operation} {id : Nat} :
      item ∈ d.paths → op ∈ item.operations → op.isSelected o = true →
        op.Uses id → d.EntryPoint o id
  | kept {name : String} {id : Nat} :
      (name, id) ∈ d.schemas → d.isForced o id = true → d.EntryPoint o id

inductive Leads (d : Document) : Nat → Nat → Prop
  | reference {id target : Nat} {text : String} :
      (d.node id).reference = some text → d.resolve? text = some target → d.Leads id target
  | part {id part : Nat} :
      (d.node id).reference = none → part ∈ (d.node id).subschemas → d.Leads id part

inductive Reached (d : Document) (o : Options) : Nat → Prop
  | entry {id : Nat} : d.EntryPoint o id → d.Reached o id
  | step {id next : Nat} : d.Reached o id → d.Leads id next → d.Reached o next

def Opens (d : Document) (id : Nat) : Prop :=
  match (d.node id).reference with
  | some text => ∃ target, d.resolve? text = some target
  | none => ∃ kind, classify (d.node id) = .ok kind

def KeptAlias (d : Document) (o : Options) (id : Nat) : Prop :=
  (∃ name, (name, id) ∈ d.schemas) ∧ d.isForced o id = true ∧ (d.node id).reference.isSome = true

structure Followable (d : Document) (o : Options) : Prop where
  opens : ∀ id, d.Reached o id → d.Opens id
  ends : ∀ id text, d.KeptAlias o id → (d.node id).reference = some text →
    ∃ target, d.resolveChain text (d.node id).location = .ok target

def Recorded (d : Document) (o : Options) (id : Nat) (kind : SchemaClass) : Prop :=
  (d.Reached o id ∧ (d.node id).reference = none ∧ ¬d.arena.IsMember id ∧
      classify (d.node id) = .ok kind) ∨
    (d.KeptAlias o id ∧ kind = .ref)

theorem opens_of_reference {d : Document} {id : Nat} {text : String}
    (h : (d.node id).reference = some text) :
    d.Opens id ↔ ∃ target, d.resolve? text = some target := by
  simp only [Opens, h]

theorem opens_of_no_reference {d : Document} {id : Nat} (h : (d.node id).reference = none) :
    d.Opens id ↔ ∃ kind, classify (d.node id) = .ok kind := by
  simp only [Opens, h]

theorem leads_of_reference {d : Document} {id next target : Nat} {text : String}
    (h : (d.node id).reference = some text) (ht : d.resolve? text = some target) :
    d.Leads id next ↔ next = target := by
  constructor
  · intro hl
    cases hl with
    | reference hr hn =>
      rw [h] at hr
      cases hr
      rw [ht] at hn
      exact (Option.some.inj hn).symm
    | part hr _ =>
      rw [h] at hr
      cases hr
  · rintro rfl
    exact .reference h ht

theorem leads_of_no_reference {d : Document} {id next : Nat} (h : (d.node id).reference = none) :
    d.Leads id next ↔ next ∈ (d.node id).subschemas := by
  constructor
  · intro hl
    cases hl with
    | reference hr _ =>
      rw [h] at hr
      cases hr
    | part _ hp => exact hp
  · exact .part h

end Document

section

variable {n : SchemaNode} {id : Nat}

theorem SchemaNode.mem_childIds_of_mem_subschemas (h : id ∈ n.subschemas) : id ∈ n.childIds := by
  simp only [subschemas, List.mem_append, Option.mem_toList] at h
  rcases h with (((((h | h) | h) | h) | h) | h) | h
  · exact mem_childIds_of_child? h
  · exact mem_childIds_of_child? h
  · exact mem_childIds_of_mem_oneOf h
  · exact mem_childIds_of_mem_allOf h
  · exact mem_childIds_of_mem_anyOf h
  · exact mem_childIds_of_child? h
  · obtain ⟨⟨name, i⟩, hmem, rfl⟩ := List.mem_map.1 h
    exact mem_childIds_of_mem_children (mem_properties.1 hmem)

end

theorem Operation.Rooted.isRoot {a : Arena} {op : Operation} (hop : op.Rooted a) {id : Nat}
    (h : op.Uses id) : a.IsRoot id := by
  cases h with
  | parameter hp hs => exact hop.parameters _ hp id hs
  | request hb hm => exact hop.requestBody _ hb _ hm id rfl
  | response hr hm => exact (hop.responses _ hr).content _ hm id rfl
  | header hr hh hs => exact (hop.responses _ hr).headers _ hh id hs

namespace Document

variable {d : Document} {o : Options}

theorem Rooted.resolve? (hd : d.Rooted) {text : String} {target : Nat}
    (h : d.resolve? text = some target) : d.arena.IsRoot target := by
  obtain ⟨entry, hmem, rfl⟩ := List.mem_map.1 (resolve?_mem h)
  exact hd.schemas entry hmem

theorem Rooted.entryPoint (hd : d.Rooted) {id : Nat} (h : d.EntryPoint o id) :
    d.arena.IsRoot id := by
  cases h with
  | shared hi _ _ hp hs => exact (hd.paths _ hi).parameters _ hp id hs
  | used hi hop _ hu => exact ((hd.paths _ hi).operations _ hop).isRoot hu
  | kept hm _ => exact hd.schemas _ hm

theorem Rooted.lt_of_leads (hd : d.Rooted) {id next : Nat} (h : d.Leads id next) :
    next < d.arena.size := by
  cases h with
  | reference _ hr => exact (hd.resolve? hr).1
  | part _ hp => exact (d.arena.child_bounds (SchemaNode.mem_childIds_of_mem_subschemas hp)).2

theorem Rooted.lt_of_reached (hd : d.Rooted) {id : Nat} (h : d.Reached o id) :
    id < d.arena.size := by
  cases h with
  | entry he => exact (hd.entryPoint he).1
  | step _ hl => exact hd.lt_of_leads hl

end Document

end ApiModel
