import ApiModel.Proofs.Union.Resolved
import ApiModel.TypeUsage

namespace ApiModel

def SimpleType.mentions : SimpleType → List TypeNames
  | .ref names => [names]
  | .array items _ => items.mentions
  | .map items _ => items.mentions
  | .any | .raw | .unit | .primitive _ => []

namespace Document

variable {d : Document} {o : Options}

structure Usable (d : Document) (o : Options) (id : Nat) : Prop where
  reached : d.Reached o id
  alone : ¬d.arena.IsMember id

theorem Usable.of_isRoot {id : Nat} (h : d.Reached o id) (hr : d.arena.IsRoot id) :
    d.Usable o id := ⟨h, hr.not_isMember⟩

theorem Usable.recorded {id : Nat} {kind : SchemaClass} (h : d.Usable o id)
    (href : (d.node id).reference = none) (hk : classify (d.node id) = .ok kind) :
    d.Recorded o id kind := .inl ⟨h.reached, href, h.alone, hk⟩

theorem Reached.usable_child? {id child : Nat} {slot : Slot} (h : d.Reached o id)
    (href : (d.node id).reference = none) (hc : (d.node id).child? slot = some child)
    (hs : slot = .items ∨ slot = .values) : d.Usable o child := by
  have hsub : child ∈ (d.node id).subschemas := by
    simp only [SchemaNode.subschemas, List.mem_append, Option.mem_toList]
    rcases hs with rfl | rfl
    · exact .inl (.inl (.inl (.inl (.inl (.inl hc)))))
    · exact .inl (.inl (.inl (.inl (.inl (.inr hc)))))
  refine ⟨.step h (.part href hsub), ?_⟩
  rw [Arena.isMember_iff (SchemaNode.mem_children_of_child? hc)]
  rcases hs with rfl | rfl <;> exact Bool.false_ne_true

theorem Reached.usable_property {id property : Nat} {name : String} (h : d.Reached o id)
    (href : (d.node id).reference = none) (hp : (name, property) ∈ (d.node id).properties) :
    d.Usable o property := by
  have hsub : property ∈ (d.node id).subschemas := by
    simp only [SchemaNode.subschemas, List.mem_append]
    exact .inr (List.mem_map.2 ⟨_, hp, rfl⟩)
  refine ⟨.step h (.part href hsub), ?_⟩
  rw [Arena.isMember_iff (SchemaNode.mem_properties.1 hp)]
  exact Bool.false_ne_true

end Document

def MergeStep.Fits (d : Document) (o : Options) : MergeStep → Prop
  | .enter id _ => d.Reached o id
  | .declare id _ => d.Reached o id ∧ (d.node id).reference = none

namespace Document

variable {d : Document} {o : Options}

theorem fits_mergeSteps {id : Nat} (h : d.Reached o id) (counts : Bool) :
    ∀ step ∈ d.mergeSteps id counts, step.Fits d o := by
  intro step hstep
  unfold mergeSteps at hstep
  simp only at hstep
  split at hstep
  · next reference href =>
    obtain ⟨target, ht, rfl⟩ := List.mem_map.1 hstep
    exact .step h (.reference href (Option.mem_toList.1 ht))
  · next href =>
    have hpart : ∀ part ∈ (d.node id).allOf ++ (d.node id).anyOf, d.Reached o part := by
      intro part hp
      refine .step h (.part href ?_)
      simp only [SchemaNode.subschemas, List.mem_append] at hp ⊢
      tauto
    split at hstep
    · cases hstep
    · rcases List.mem_append.1 hstep with hstep | hstep
      · rcases List.mem_append.1 hstep with hstep | hstep
        · obtain ⟨part, hp, rfl⟩ := List.mem_map.1 hstep
          exact hpart part (List.mem_append_left _ hp)
        · obtain ⟨part, hp, rfl⟩ := List.mem_map.1 hstep
          exact hpart part (List.mem_append_right _ hp)
      · rw [List.mem_singleton] at hstep
        subst hstep
        exact ⟨h, href⟩

theorem usable_mergeAll {steps : List MergeStep} {m : MergedProperties}
    (hsteps : ∀ step ∈ steps, step.Fits d o) (hm : ∀ e ∈ m.properties, d.Usable o e.2) :
    ∀ e ∈ (d.mergeAll steps m).properties, d.Usable o e.2 := by
  fun_induction mergeAll d steps m with
  | case1 m => exact hm
  | case2 id counts rest m ih =>
    refine ih (fun step hs => hsteps step (List.mem_cons_of_mem _ hs)) fun e he => ?_
    obtain ⟨hreached, href⟩ := hsteps _ List.mem_cons_self
    rcases OrderedMap.mem_insertAll he with he | he
    · exact hm e he
    · exact hreached.usable_property href he
  | case3 id counts rest m hopen ih =>
    refine ih (fun step hs => ?_) hm
    rcases List.mem_append.1 hs with hs | hs
    · exact fits_mergeSteps (hsteps _ List.mem_cons_self) counts step hs
    · exact hsteps step (List.mem_cons_of_mem _ hs)
  | case4 id counts rest m hopen ih =>
    exact ih (fun step hs => hsteps step (List.mem_cons_of_mem _ hs)) hm

theorem usable_resolveProperties {id : Nat} (h : d.Reached o id) :
    ∀ e ∈ (d.resolveProperties id).properties, d.Usable o e.2 :=
  usable_mergeAll (by simpa [MergeStep.Fits] using h) (by simp)

end Document

structure Context.Ready (c : Context) : Prop where
  rooted : c.document.Rooted
  followable : c.document.Followable c.options
  resolved : Resolved c.document c.options c.placed

namespace Context

variable {c : Context} {id : Nat}

def Usable (c : Context) (id : Nat) : Prop := c.document.Usable c.options id

theorem Ready.namedReference_meets (h : c.Ready) (hid : c.document.Reached c.options id)
    {reference : String} (href : (c.node id).reference = some reference) (location : String) :
    Meets (c.namedReference reference location) c.tree.Named ConversionError.Expected :=
  ModelTree.namedReference_meets h.rooted h.followable h.resolved.built location
    fun _ ht => .step hid (.reference href ht)

theorem Ready.typeOf_meets (h : c.Ready) (hid : c.Usable id) :
    Meets (c.typeOf id) (fun type => ∀ names ∈ type.mentions, c.tree.Named names)
      ConversionError.Expected := by
  fun_induction Context.typeOf c id with
  | case1 id n reference href =>
    refine Meets.map ((h.namedReference_meets hid.reached href _).weaken fun names hn => ?_)
    simpa [SimpleType.mentions] using hn
  | case2 id n href names hnames =>
    have hn : c.tree.Named names := ModelTree.named_of_names? hnames
    simpa [SimpleType.mentions] using hn
  | case3 id n href hnames e hk =>
    exact (Document.classify_expected (c.node id)).of_error hk
  | case4 id n href hnames type hk => simp [SimpleType.mentions]
  | case5 id n href hnames hk element hitems ih =>
    exact Meets.map (ih (hid.reached.usable_child? href hitems (.inl rfl)))
  | case6 id n href hnames hk hitems => simp [SimpleType.mentions]
  | case7 id n href hnames hk element hvalues ih =>
    exact Meets.map (ih (hid.reached.usable_child? href hvalues (.inr rfl)))
  | case8 id n href hnames hk hvalues => simp [SimpleType.mentions]
  | case9 id n href hnames hk => simp [SimpleType.mentions]
  | case10 id n href hnames kind hprimitive harray hmap hraw hk =>
    have hrec := hid.recorded href hk
    have hneeds : kind.needsName = true := by
      cases kind with
      | primitive type => exact (hprimitive type rfl).elim
      | array => exact (harray rfl).elim
      | map => exact (hmap rfl).elim
      | raw => exact (hraw rfl).elim
      | ref =>
        have hsome := classify_ref_iff.1 hk
        rw [href] at hsome
        cases hsome
      | _ => rfl
    obtain ⟨names, hsome⟩ :=
      ModelTree.names?_isSome (h.resolved.built.needed id kind hrec hneeds)
    rw [show c.placed.tree = c.tree from rfl, hnames] at hsome
    cases hsome

end Context

end ApiModel
