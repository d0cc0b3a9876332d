import ApiModel.Proofs.ModelTree.Planned
/-!
The names of the recorded components: those that claiming their declared names one after the other
gives. Whatever else is placed meanwhile has more segments in its name, and what comes later no
longer changes a name.
-/

namespace ApiModel

def Reachability.recorded (r : Reachability) (components : List (String × Nat)) :
    List (String × Nat) :=
  components.filter fun e => (r.entry? e.2).isSome

def declaredNames (components : List (String × Nat)) : List TypeNames :=
  components.map fun e => .root (Naming.typeName e.1)

namespace ModelTree

structure GrownBelow (d : Document) (t t' : ModelTree) : Prop where
  kept : ∀ l ∈ t.labels, l ∈ t'.labels
  origin : ∀ l ∈ t'.labels, l ∈ t.labels ∨ ∃ u, l.id ∈ (d.node u).oneOf
  taken : NameRegistry.SameNames 1 t'.registry t.registry

variable {d : Document} {o : Options} {r : Reachability} {t t' t'' : ModelTree} {id : Nat}
  {candidate : TypeNames} {kind : SchemaClass} {parent : Option Nat}

namespace GrownBelow

theorem refl (d : Document) (t : ModelTree) : GrownBelow d t t :=
  ⟨fun _ hl => hl, fun _ hl => .inl hl, .refl 1 t.registry⟩

theorem trans (h : GrownBelow d t t') (h' : GrownBelow d t' t'') : GrownBelow d t t'' where
  kept l hl := h'.kept l (h.kept l hl)
  origin l hl := (h'.origin l hl).elim (h.origin l) .inr
  taken := h'.taken.trans h.taken

theorem place {u : Nat} (hmember : id ∈ (d.node u).oneOf)
    (hlength : 1 < candidate.segments.length) :
    GrownBelow d t (t.place id candidate kind parent).2 where
  kept := (forall_mem_labels_place.1 fun _ hl => hl).1
  origin := forall_mem_labels_place.2 ⟨fun _ hl => .inl hl, .inr ⟨u, hmember⟩⟩
  taken n hn := by
    have hne : n ≠ t.registry.nameFor candidate := by
      rintro rfl
      rw [NameRegistry.length_nameFor (List.ne_nil_of_length_pos (by omega))] at hn
      omega
    rw [taken_place, List.mem_cons]
    exact or_iff_right hne

end GrownBelow

theorem add_grownBelow (hne : candidate.segments ≠ []) :
    Meets (add d id candidate kind parent t)
      (GrownBelow d (t.place id candidate kind parent).2) fun _ => True := by
  -- on the room behind the schema, since inline members stand behind their union
  induction hn : d.arena.size - id using Nat.strongRecOn
    generalizing id candidate kind parent t with
  | ind n ih =>
    subst hn
    have hplaced := GrownBelow.refl d (t.place id candidate kind parent).2
    rw [add_eq]
    split
    · refine Meets.foldlM (fun _ => GrownBelow d (t.place id candidate kind parent).2) hplaced ?_
      rintro done ⟨member, number⟩ rest u hsplit hu
      obtain ⟨hmember, hbehind⟩ := member_of_turn hsplit
      unfold addInline
      split
      · exact hu
      · cases hclass : classify (d.node member) with
        | error e => trivial
        | ok kind' =>
          have hlong : 1 < ((t.registry.nameFor candidate).child
              ("OneOf" ++ toString number)).segments.length := by
            have hpos := List.length_pos_of_ne_nil hne
            rw [TypeNames.segments_child, List.length_append, NameRegistry.length_nameFor hne,
              List.length_singleton]
            omega
          have hchild := List.ne_nil_of_length_pos (Nat.zero_lt_of_lt hlong)
          refine (ih (d.arena.size - member) (by omega) hchild rfl).weaken fun t' h => ?_
          exact hu.trans ((GrownBelow.place (List.mem_of_getElem? hmember) hlong).trans h)
    · exact hplaced

def Names (t : ModelTree) (id : Nat) (names : TypeNames) : Prop :=
  ∃ l ∈ t.labels, l.id = id ∧ l.names = names

structure Declared (d : Document) (r : Reachability) (done : List (String × Nat))
    (t : ModelTree) : Prop where
  named : List.Forall₂ (fun e => t.Names e.2) (r.recorded done)
    (({} : NameRegistry).claimAll (declaredNames (r.recorded done))).1
  taken : NameRegistry.SameNames 1 t.registry
    (({} : NameRegistry).claimAll (declaredNames (r.recorded done))).2
  origin : ∀ l ∈ t.labels, l.id ∈ done.map (·.2) ∨ ∃ u, l.id ∈ (d.node u).oneOf

variable {done : List (String × Nat)} {name : String}

theorem Declared.skip (h : Declared d r done t) (hnone : r.entry? id = none) (n : Note) :
    Declared d r (done ++ [(name, id)]) (t.note n) := by
  have hrecorded : r.recorded (done ++ [(name, id)]) = r.recorded done := by
    simp [Reachability.recorded, hnone]
  refine ⟨?_, ?_, fun l hl => (h.origin l hl).imp_left fun hid => ?_⟩
  · rw [hrecorded]
    exact h.named
  · rw [hrecorded]
    exact h.taken
  · rw [List.map_append]
    exact List.mem_append_left _ hid

theorem Declared.next (h : Declared d r done t) {entry : ReachableSchema}
    (hentry : r.entry? id = some entry)
    (hgrown : GrownBelow d (t.place id (.root (Naming.typeName name)) entry.kind none).2 t') :
    Declared d r (done ++ [(name, id)]) t' := by
  have hrecorded : r.recorded (done ++ [(name, id)]) = r.recorded done ++ [(name, id)] := by
    simp [Reachability.recorded, hentry]
  have hdeclared : declaredNames (r.recorded (done ++ [(name, id)])) =
      declaredNames (r.recorded done) ++ [.root (Naming.typeName name)] := by
    rw [hrecorded, declaredNames, List.map_append]
    rfl
  have hname : t.registry.nameFor (.root (Naming.typeName name)) =
      (({} : NameRegistry).claimAll (declaredNames (r.recorded done))).2.nameFor
        (.root (Naming.typeName name)) :=
    NameRegistry.SameNames.nameFor h.taken (List.cons_ne_nil _ _)
  obtain ⟨hkept, hnew⟩ := forall_mem_labels_place.1 hgrown.kept
  refine ⟨?_, ?_, fun l hl => ?_⟩
  · rw [hdeclared, NameRegistry.claimAll_concat, hrecorded]
    have hold : List.Forall₂ (fun e => t'.Names e.2) (r.recorded done)
        (({} : NameRegistry).claimAll (declaredNames (r.recorded done))).1 :=
      h.named.imp fun _ _ ⟨l, hl, hlabel⟩ => ⟨l, hkept l hl, hlabel⟩
    exact List.rel_append hold (.cons ⟨_, hnew, rfl, hname⟩ .nil)
  · rw [hdeclared, NameRegistry.claimAll_concat]
    intro n hn
    rw [hgrown.taken n hn, taken_place, List.mem_cons, h.taken n hn, hname]
    exact List.mem_cons.symm
  · have hplaced : ∀ l ∈ (t.place id (.root (Naming.typeName name)) entry.kind none).2.labels,
        l.id ∈ (done ++ [(name, id)]).map (·.2) ∨ ∃ u, l.id ∈ (d.node u).oneOf :=
      forall_mem_labels_place.2
        ⟨fun l hl => (h.origin l hl).imp_left fun hid => by simp [hid], .inl (by simp)⟩
    exact (hgrown.origin l hl).elim (hplaced l) .inr

theorem Declared.not_contains (h : Declared d r done t) (hd : d.Rooted)
    {rest : List (String × Nat)} (hsplit : d.schemas = done ++ (name, id) :: rest) :
    t.contains id = false := by
  have hdistinct : (d.schemas.map (·.2)).Nodup := hd.distinct
  rw [contains_false_iff]
  rintro l hl rfl
  rcases h.origin l hl with hdone | ⟨u, hmember⟩
  · rw [hsplit, List.map_append] at hdistinct
    exact List.disjoint_of_nodup_append hdistinct hdone List.mem_cons_self
  · have hroot := hd.schemas (name, l.id) (by rw [hsplit]; simp)
    exact hroot.not_child (SchemaNode.mem_childIds_of_mem_oneOf hmember)

theorem addComponents_declared (hd : d.Rooted) (r : Reachability) :
    Meets (addComponents d r {}) (Declared d r d.schemas) fun _ => True := by
  unfold addComponents
  refine Meets.foldlM (Declared d r) ⟨.nil, .refl 1 {}, by simp [labels]⟩ ?_
  rintro done ⟨name, id⟩ rest t hsplit h
  simp only
  split
  · next entry hentry =>
    rw [h.not_contains hd hsplit, if_neg Bool.false_ne_true]
    exact (add_grownBelow (List.cons_ne_nil _ _)).weaken fun t' => h.next hentry
  · next hnone => exact h.skip hnone _

structure DeclaredExact (d : Document) (r : Reachability) (t : ModelTree) : Prop where
  placed : ∀ e ∈ d.schemas, t.contains e.2 = (r.entry? e.2).isSome
  claimed : (r.recorded d.schemas).map (fun e => t.names? e.2) =
    (({} : NameRegistry).claimAll (declaredNames (r.recorded d.schemas))).1.map some
  apart : Apart d r →
    ∀ e ∈ r.recorded d.schemas, t.names? e.2 = some (.root (Naming.typeName e.1))

theorem Built.contains_component (h : Built d o t) (hs : d.Searched o r) {e : String × Nat}
    (he : e ∈ d.schemas) : t.contains e.2 = (r.entry? e.2).isSome := by
  cases hentry : r.entry? e.2 with
  | some entry => exact h.components e he entry.kind (entry?_some hs hentry)
  | none =>
    refine contains_false_iff.2 fun l hl hid => ?_
    exact entry?_none hs hentry (hid ▸ h.sound.recorded l hl)

theorem build_claims (hd : d.Rooted) (hs : d.Searched o r) (ht : build d r = .ok t) :
    (r.recorded d.schemas).map (fun e => t.names? e.2) =
      (({} : NameRegistry).claimAll (declaredNames (r.recorded d.schemas))).1.map some := by
  have hsound := ((build_meets hs).of_ok ht).sound
  obtain ⟨first, hfirst, hrest⟩ := ok_of_bind ht
  obtain ⟨hext, -⟩ := (addComponents_meets hs (.empty d o)).of_ok hfirst
  have hrounds : first.openEntries r.entries < r.entries.length + 1 :=
    Nat.lt_succ_of_le List.countP_le_length
  have hrun : Run d o first t :=
    ((settle_meets hs _ ((Sound.empty d o).run hext.run) hrounds).of_ok hrest).1.run
  have hnamed := ((addComponents_declared hd r).of_ok hfirst).named
  have hfinal : List.Forall₂ (fun e names => t.names? e.2 = some names) (r.recorded d.schemas)
      (({} : NameRegistry).claimAll (declaredNames (r.recorded d.schemas))).1 :=
    hnamed.imp fun e names ⟨l, hl, hlabel⟩ => hsound.names?_iff.2 ⟨l, hrun.mem hl, hlabel⟩
  rwa [← List.forall₂_eq_eq_eq, List.forall₂_map_left_iff, List.forall₂_map_right_iff]

theorem nodup_declaredNames (h : Apart d r) : (declaredNames (r.recorded d.schemas)).Nodup := by
  have hroot : Function.Injective TypeNames.root := by
    intro name name' heq
    simpa [TypeNames.root] using heq
  have hnames : declaredNames (r.recorded d.schemas) =
      ((r.recorded d.schemas).map fun e => Naming.typeName e.1).map .root := by
    rw [List.map_map]
    rfl
  rw [hnames]
  exact h.map hroot

theorem build_names_declared {text : String} {l : Options} {complaints : List String}
    (hload : Document.load text l = .ok (d, complaints)) (hr : d.reachable o = .ok r)
    (ht : build d r = .ok t) : DeclaredExact d r t := by
  have hd := Document.rooted_of_load hload
  have hs := (Document.reachable_meets hd o).of_ok hr
  have hclaims := build_claims hd hs ht
  refine ⟨fun e he => ((build_meets hs).of_ok ht).contains_component hs he, hclaims,
    fun hapart e he => ?_⟩
  rw [NameRegistry.claimAll_of_nodup (nodup_declaredNames hapart) (by simp), declaredNames,
    List.map_map] at hclaims
  exact List.map_inj_left.1 hclaims e he

def outnumbered : String :=
  "\x7bopenapi: '3.1', info: \x7b\x7d, components: \x7bschemas: \x7b" ++
    "list: \x7bitems: \x7banyOf: [\x7b\x7d]\x7d\x7d, " ++
    "pet: \x7boneOf: [\x7banyOf: [\x7b\x7d]\x7d]\x7d, " ++
    "Pet: \x7b\x7d, ListItems: \x7b\x7d\x7d\x7d\x7d"

theorem build_names_declared_outnumbered : ∃ d r t, Document.load outnumbered {} = .ok (d, []) ∧
    d.reachable Document.keepAll = .ok r ∧ build d r = .ok t ∧
      t.namesAt 5 = .root "ListItems2" ∧ DeclaredExact d r t := by
  have hcheck : ((Document.load outnumbered {}).toOption.any fun x => x.2.isEmpty &&
      (x.1.reachable Document.keepAll).toOption.any fun r => (build x.1 r).toOption.any fun t =>
        decide (t.namesAt 5 = .root "ListItems2")) = true := by
    decide +kernel
  obtain ⟨d, hload, hreached⟩ := quiet_of_any hcheck
  obtain ⟨r, hr, hbuilt⟩ := ok_of_any hreached
  obtain ⟨t, ht, hlast⟩ := ok_of_any hbuilt
  exact ⟨d, r, t, hload, hr, ht, of_decide_eq_true hlast, build_names_declared hload hr ht⟩

end ModelTree

end ApiModel
