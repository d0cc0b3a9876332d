import ApiModel.NamedSchemas
import ApiModel.Proofs.Model.Usage

namespace ApiModel

def SchemaShape.mentions : SchemaShape → List TypeNames
  | .array items _ => items.mentions
  | .map items _ => items.mentions
  | .object properties => properties.flatMap (·.type.mentions)
  | .sealed _ variants => variants.map (·.names)
  | .ref target => [target]
  | .primitive _ | .enum _ | .raw => []

namespace Context

variable {c : Context} {id index : Nat} {level : Nat → Nat}

theorem Ready.elementType_meets (h : c.Ready) {element : Option Nat}
    (he : ∀ id, element = some id → c.Usable id) :
    Meets (c.elementType element) (fun x => ∀ names ∈ x.1.mentions, c.tree.Named names)
      ConversionError.Expected := by
  cases element with
  | none => simp [elementType, SimpleType.mentions]
  | some id => exact Meets.map (h.typeOf_meets (he id rfl))

theorem Ready.property_meets (h : c.Ready) (required : List String) {entry : String × Nat}
    (he : c.Usable entry.2) :
    Meets (c.property required entry) (fun p => ∀ names ∈ p.type.mentions, c.tree.Named names)
      ConversionError.Expected := by
  unfold property
  exact (h.typeOf_meets he).bind fun type _ ht => ht

theorem Ready.properties_meets (h : c.Ready) (hid : c.document.Reached c.options id) :
    Meets (c.properties id)
      (fun ps => ∀ p ∈ ps, ∀ names ∈ p.type.mentions, c.tree.Named names)
      ConversionError.Expected := by
  unfold properties
  refine Meets.mapM_all _ fun entry he => ?_
  exact h.property_meets _ (Document.usable_resolveProperties hid entry he)

theorem Ready.shapeOf_meets (h : c.Ready) {m : ModelNode} (hm : c.tree.node? index = some m) :
    Meets (c.shapeOf index m)
      (fun s => (∀ names ∈ s.mentions, c.tree.Named names) ∧
        (m.kind.Nests → s.holdsChildren = true)) ConversionError.Expected := by
  have hlabel : c.tree.labels[index]? = some m.label := ModelTree.getElem?_labels_of_node? hm
  have hrec : c.document.Recorded c.options m.id m.kind :=
    h.resolved.built.sound.recorded _ (List.mem_of_getElem? hlabel)
  have hpart : ∀ slot child, m.kind ≠ .ref → (slot = .items ∨ slot = .values) →
      (c.node m.id).child? slot = some child → c.Usable child := by
    intro slot child hk hs hc
    exact hrec.reached.usable_child? (hrec.reference_none hk) hc hs
  unfold shapeOf
  simp only
  split
  · next type hk => simp [SchemaShape.mentions, hk, SchemaClass.Nests]
  · next hk => simp [SchemaShape.mentions, hk, SchemaClass.Nests]
  · next hk =>
    have hitems : ∀ child, (c.node m.id).items = some child → c.Usable child :=
      fun child => hpart .items child (by simp [hk]) (.inl rfl)
    refine (h.elementType_meets hitems).bind fun x _ hx => ⟨hx, fun hn => ?_⟩
    simp [hk, SchemaClass.Nests] at hn
  · next hk =>
    have hvalues : ∀ child, (c.node m.id).values = some child → c.Usable child :=
      fun child => hpart .values child (by simp [hk]) (.inr rfl)
    refine (h.elementType_meets hvalues).bind fun x _ hx => ⟨hx, fun hn => ?_⟩
    simp [hk, SchemaClass.Nests] at hn
  · next hk =>
    refine (h.properties_meets hrec.reached).bind fun ps _ hps => ⟨fun names hn => ?_, fun _ => rfl⟩
    obtain ⟨p, hp, hn⟩ := List.mem_flatMap.1 hn
    exact hps p hp names hn
  · next hk =>
    obtain ⟨shape, hshape⟩ := h.resolved.shapes index m.label hlabel hk
    rw [show c.unions.shapes.get? index = some shape from hshape]
    refine ⟨fun names hn => ?_, fun _ => rfl⟩
    obtain ⟨v, hv, rfl⟩ := List.mem_map.1 hn
    exact h.resolved.within.variants _ (OrderedMap.mem_of_get? hshape) v hv
  · next hk =>
    obtain ⟨reference, href⟩ := (hk ▸ hrec).reference_some
    rw [show (c.node m.id).reference = some reference from href]
    refine (h.namedReference_meets hrec.reached href _).bind fun names _ hnamed =>
      ⟨fun n hn => ?_, fun hn => ?_⟩
    · rw [List.mem_singleton.1 hn]
      exact hnamed
    · simp [hk, SchemaClass.Nests] at hn
  · next hk => simp [SchemaShape.mentions, hk, SchemaClass.Nests]

structure Renders (c : Context) (index : Nat) (s : NamedSchema) : Prop where
  node : ∃ m, c.tree.node? index = some m ∧ s.names = m.names ∧ c.shapeOf index m = .ok s.shape
  nested : s.children.map NamedSchema.names = (c.tree.childrenAt index).map c.tree.namesAt
  mentions : ∀ names ∈ s.shape.mentions, c.tree.Named names

theorem forall₂_walkAll {R : Nat → NamedSchema → Prop} {f : Nat → List Nat} {l : List Nat}
    {schemas : List NamedSchema}
    (h : List.Forall₂ (fun i s => List.Forall₂ R (f i) s.walk) l schemas) :
    List.Forall₂ R (l.flatMap f) (NamedSchema.walkAll schemas) := by
  induction h with
  | nil => exact .nil
  | cons hs _ ih =>
    rw [List.flatMap_cons, NamedSchema.walkAll]
    exact List.rel_append hs ih

theorem Ready.namedSchema_meets (h : c.Ready) (hl : Levels c.tree.parent? level) {depth : Nat}
    (hi : index < c.tree.nodes.length) (hdepth : c.tree.nodes.length ≤ depth + level index) :
    Meets (c.namedSchema depth index)
      (fun s => s.names = c.tree.namesAt index ∧
        List.Forall₂ c.Renders (preorder c.tree.childrenAt depth index) s.walk)
      ConversionError.Expected := by
  have hforest : c.tree.IsForest := h.resolved.built.sound.forest
  -- every level above a position leaves over as much of the depth as the walk below it needs
  induction depth generalizing index with
  | zero =>
    have := hforest.level_lt hl hi
    omega
  | succ depth ih =>
    obtain ⟨m, hm⟩ := ModelTree.exists_node hi
    have hchildren : c.tree.childrenAt index = m.children := by
      rw [ModelTree.childrenAt, hm]
      rfl
    have hparent : ∀ child ∈ m.children, c.tree.parent? child = some index :=
      fun child hc => (hforest.mem_children index child).1 (hchildren ▸ hc)
    unfold namedSchema
    rw [hm]
    simp only
    have hbelow : Meets (m.children.mapM (c.namedSchema depth))
        (List.Forall₂ (fun child s => s.names = c.tree.namesAt child ∧
          List.Forall₂ c.Renders (preorder c.tree.childrenAt depth child) s.walk) m.children)
        ConversionError.Expected := by
      refine Meets.mapM fun child hc => ?_
      have hp := hparent child hc
      have hlevel := hl.child child index hp
      exact ih (hforest.bounded child index hp).1 (by omega)
    refine hbelow.bind fun children _ hall => ?_
    refine (h.shapeOf_meets hm).bind fun shape hshape hs => ?_
    obtain ⟨hmentions, hholds⟩ := hs
    split
    · refine ⟨(ModelTree.namesAt_of_node? hm).symm, ?_⟩
      rw [preorder, NamedSchema.walk, hchildren]
      refine .cons ⟨⟨m, hm, rfl, hshape⟩, ?_, hmentions⟩
        (forall₂_walkAll (hall.imp fun _ _ hs => hs.2))
      rw [hchildren, ← List.forall₂_eq_eq_eq, List.forall₂_map_left_iff,
        List.forall₂_map_right_iff]
      exact (hall.imp fun _ _ hs => hs.1).flip
    · next hcannot =>
      simp only [Bool.or_eq_true, not_or, Bool.not_eq_true] at hcannot
      obtain ⟨hsome, hshut⟩ := hcannot
      cases hc : m.children with
      | nil =>
        rw [hc] at hall
        cases hall
        cases hsome
      | cons child rest =>
        have hnests : m.kind.Nests :=
          h.resolved.built.sound.nests hm (hparent child (by simp [hc]))
        rw [hholds hnests] at hshut
        cases hshut

theorem Ready.namedSchemas_meets (h : c.Ready) :
    Meets c.namedSchemas
      (fun schemas => ∃ order : List Nat, order.Perm (List.range c.tree.nodes.length) ∧
        List.Forall₂ c.Renders order (NamedSchema.walkAll schemas)) ConversionError.Expected := by
  have hforest : c.tree.IsForest := h.resolved.built.sound.forest
  obtain ⟨level, hl⟩ := hforest.levels
  have hall : Meets c.namedSchemas
      (List.Forall₂ (fun i s => List.Forall₂ c.Renders
        (preorder c.tree.childrenAt (c.tree.nodes.length + 1) i) s.walk) c.tree.roots)
      ConversionError.Expected := by
    refine Meets.mapM fun root hroot => ?_
    have hlt := ((hforest.mem_roots root).1 hroot).1
    exact (h.namedSchema_meets hl hlt (by omega)).weaken fun s hs => hs.2
  exact hall.weaken fun schemas hs =>
    ⟨_, hforest.preorder_perm (Nat.le_succ _), forall₂_walkAll hs⟩

end Context

end ApiModel
