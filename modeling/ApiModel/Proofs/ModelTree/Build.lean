import ApiModel.Proofs.ModelTree.Run
import ApiModel.Proofs.Reachability.Search

namespace ApiModel

theorem Arena.map_unionMembers (a : Arena) (id : Nat) :
    (a.unionMembers id).map (·.1) = (a.node id).oneOf := by
  rw [unionMembers, List.map_map]
  exact List.attach_map_subtype_val _

namespace ModelTree

variable {d : Document} {o : Options} {r : Reachability} {t t' t'' : ModelTree} {id : Nat}
  {candidate : TypeNames} {kind : SchemaClass} {parent : Option Nat}

def addInline (d : Document) (names : TypeNames) (index : Nat) (t : ModelTree) (e : Nat × Nat) :
    Except ConversionError ModelTree :=
  if (d.node e.1).reference.isSome || t.contains e.1 then .ok t
  else do
    let kind ← classify (d.node e.1)
    add d e.1 (names.child ("OneOf" ++ toString e.2)) kind (some index) t

theorem add_eq : add d id candidate kind parent t =
    if kind = .sealed then
      (d.node id).oneOf.zipIdx.foldlM (addInline d (t.registry.nameFor candidate) t.nodes.length)
        (t.place id candidate kind parent).2
    else .ok (t.place id candidate kind parent).2 := by
  have heq : t.place id candidate kind parent =
      (t.registry.nameFor candidate, (t.place id candidate kind parent).2) := rfl
  rw [add, heq]
  simp only
  rw [show (d.node id).oneOf = (d.arena.unionMembers id).map (·.1) from
    (d.arena.map_unionMembers id).symm, List.zipIdx_map, List.foldlM_map]
  rfl

theorem isOpen_iff : ¬((d.node id).reference.isSome || t.contains id) = true ↔
    (d.node id).reference = none ∧ t.contains id = false := by
  simp

theorem member_of_turn {member number : Nat} {done rest : List (Nat × Nat)}
    (h : (d.node id).oneOf.zipIdx = done ++ (member, number) :: rest) :
    (d.node id).oneOf[number]? = some member ∧ id < member ∧ member < d.arena.size := by
  have hmember : (d.node id).oneOf[number]? = some member :=
    List.mk_mem_zipIdx_iff_getElem?.1 (by rw [h]; simp)
  have hchild := SchemaNode.mem_childIds_of_mem_oneOf (List.mem_of_getElem? hmember)
  exact ⟨hmember, d.arena.child_bounds hchild⟩

def HoldsMembers (t : ModelTree) (d : Document) (l : Label) : Prop :=
  l.kind = .sealed → ∀ member ∈ (d.node l.id).oneOf, (d.node member).reference = none →
    t.contains member = true

structure Extends (d : Document) (o : Options) (t t' : ModelTree) : Prop where
  run : Run d o t t'
  full : ∀ l ∈ t'.labels, l ∈ t.labels ∨ t'.HoldsMembers d l

theorem HoldsMembers.run {l : Label} (h : t.HoldsMembers d l) (hr : Run d o t t') :
    t'.HoldsMembers d l := fun hk member hm href => hr.contains (h hk member hm href)

theorem Extends.refl (d : Document) (o : Options) (t : ModelTree) : Extends d o t t :=
  ⟨.refl, fun _ hl => .inl hl⟩

theorem Extends.trans (h : Extends d o t t') (h' : Extends d o t' t'') : Extends d o t t'' := by
  refine ⟨h.run.trans h'.run, fun l hl => ?_⟩
  rcases h'.full l hl with hl | hl
  · rcases h.full l hl with hl | hl
    · exact .inl hl
    · exact .inr (hl.run h'.run)
  · exact .inr hl

theorem Extends.note (n : Note) : Extends d o t (t.note n) :=
  ⟨.single (.note t n), fun _ hl => .inl hl⟩

theorem getElem?_labels_place (t : ModelTree) (id : Nat) (candidate : TypeNames)
    (kind : SchemaClass) (parent : Option Nat) :
    (t.place id candidate kind parent).2.labels[t.nodes.length]? =
      some ⟨id, t.registry.nameFor candidate, kind⟩ := by
  rw [labels_place, ← length_labels]
  exact List.getElem?_concat_length

theorem Extends.of_place (hstep : Step d o t (t.place id candidate kind parent).2)
    (h : Extends d o (t.place id candidate kind parent).2 t')
    (hholds : t'.HoldsMembers d ⟨id, t.registry.nameFor candidate, kind⟩) :
    Extends d o t t' ∧ t'.contains id = true := by
  have hnew := List.mem_of_getElem? (t.getElem?_labels_place id candidate kind parent)
  have hplaced : ∀ l ∈ (t.place id candidate kind parent).2.labels,
      l ∈ t.labels ∨ t'.HoldsMembers d l :=
    forall_mem_labels_place.2 ⟨fun _ hl => .inl hl, .inr hholds⟩
  refine ⟨⟨.head hstep h.run, fun l hl => ?_⟩, contains_iff.2 ⟨_, h.run.mem hnew, rfl⟩⟩
  rcases h.full l hl with hl | hl
  · exact hplaced l hl
  · exact .inr hl

structure Filling (d : Document) (o : Options) (t : ModelTree) (done : List Nat)
    (t' : ModelTree) : Prop where
  extended : Extends d o t t'
  present : ∀ member ∈ done, (d.node member).reference = none → t'.contains member = true

theorem Filling.next {done : List Nat} {member : Nat} (h : t.Filling d o done t')
    (hext : Extends d o t' t'')
    (hmember : (d.node member).reference = none → t''.contains member = true) :
    t.Filling d o (done ++ [member]) t'' := by
  refine ⟨h.extended.trans hext, List.forall_mem_append.2 ⟨fun m hm href => ?_, ?_⟩⟩
  · exact hext.run.contains (h.present m hm href)
  · exact List.forall_mem_singleton.2 hmember

theorem add_meets (hf : d.Followable o) (ht : t.Sound d o)
    (hstep : Step d o t (t.place id candidate kind parent).2) :
    Meets (add d id candidate kind parent t)
      (fun t' => Extends d o t t' ∧ t'.contains id = true) fun _ => False := by
  -- on the room behind the schema, since inline members stand behind their union
  induction hn : d.arena.size - id using Nat.strongRecOn
    generalizing id candidate kind parent t with
  | ind n ih =>
    subst hn
    have hplaced := ht.step hstep
    have hlabel := t.getElem?_labels_place id candidate kind parent
    rw [add_eq]
    split
    · next hk =>
      subst hk
      have hrec := hplaced.recorded _ (List.mem_of_getElem? hlabel)
      have hid := hrec.reference_none (by simp)
      refine (Meets.foldlM
        (fun done => (t.place id candidate .sealed parent).2.Filling d o (done.map (·.1)))
        ⟨.refl d o _, by simp⟩ ?_).weaken fun t' h => ?_
      · rintro done ⟨member, number⟩ rest t' hsplit h
        obtain ⟨hmember, hbehind⟩ := member_of_turn hsplit
        rw [List.map_append]
        unfold addInline
        split
        · next hskip =>
          refine h.next (.refl d o t') fun href => ?_
          simpa [href] using hskip
        · next hopen =>
          obtain ⟨href, hnew⟩ := isOpen_iff.1 hopen
          have hreached : d.Reached o member :=
            .step hrec.reached (.part hid
              (SchemaNode.mem_subschemas_of_oneOf (List.mem_of_getElem? hmember)))
          obtain ⟨kind, hkind⟩ := (Document.opens_of_no_reference href).1 (hf.opens _ hreached)
          have hrun := h.extended.run
          have hmstep := Step.member (o := o) (hrun.getElem? hlabel) rfl hmember href hnew hkind
          rw [hkind]
          refine (ih (d.arena.size - member) (by omega) (hplaced.run hrun) hmstep
            rfl).weaken fun t'' h' => ?_
          exact h.next h'.1 fun _ => h'.2
      · refine Extends.of_place hstep h.extended fun _ member hm href => h.present member ?_ href
        have hall := List.zipIdx_map_fst 0 (d.node id).oneOf
        rwa [hall]
    · next hk => exact Extends.of_place hstep (.refl d o _) fun hk' => absurd hk' hk

def HoldsComponents (t : ModelTree) (d : Document) (o : Options) (done : List (String × Nat)) :
    Prop := ∀ e ∈ done, ∀ kind, d.Recorded o e.2 kind → t.contains e.2 = true

theorem HoldsComponents.next {done : List (String × Nat)} {e : String × Nat}
    (h : t.HoldsComponents d o done) (hr : Run d o t t')
    (hnew : ∀ kind, d.Recorded o e.2 kind → t'.contains e.2 = true) :
    t'.HoldsComponents d o (done ++ [e]) := by
  refine List.forall_mem_append.2 ⟨fun e' he kind hrec => ?_, ?_⟩
  · exact hr.contains (h e' he kind hrec)
  · exact List.forall_mem_singleton.2 hnew

theorem entry?_some (hs : d.Searched o r) {entry : ReachableSchema} (h : r.entry? id = some entry) :
    d.Recorded o id entry.kind := by
  have hid := List.find?_some h
  rw [beq_iff_eq] at hid
  refine (hs.entries id entry.kind).1 ⟨entry.path, ?_⟩
  rw [← hid]
  exact List.mem_of_find?_eq_some h

theorem entry?_none (hs : d.Searched o r) (h : r.entry? id = none) : ¬d.Recorded o id kind := by
  intro hrec
  obtain ⟨path, hmem⟩ := (hs.entries id kind).2 hrec
  have hne := List.find?_eq_none.1 h _ hmem
  simp at hne

theorem addComponents_meets (hs : d.Searched o r) (ht : t.Sound d o) :
    Meets (addComponents d r t)
      (fun t' => Extends d o t t' ∧ t'.HoldsComponents d o d.schemas) fun _ => False := by
  refine Meets.foldlM (fun done t' => Extends d o t t' ∧ t'.HoldsComponents d o done)
    ⟨.refl d o t, fun _ he => by cases he⟩ ?_
  rintro done ⟨name, id⟩ rest t' _ ⟨hext, hdone⟩
  simp only
  split
  · next entry hentry =>
    have hrec := entry?_some hs hentry
    split
    · next hold => exact ⟨hext, hdone.next .refl fun _ _ => hold⟩
    · next hnew =>
      have hnew' : t'.contains id = false := by simpa using hnew
      refine (add_meets hs.followable (ht.run hext.run)
        (Step.root name hrec hnew')).weaken fun t'' h => ?_
      exact ⟨hext.trans h.1, hdone.next h.1.run fun _ _ => h.2⟩
  · next hnone =>
    have hnote : Extends d o t' (t'.note (.dropped name)) := .note _
    exact ⟨hext.trans hnote, hdone.next hnote.run fun _ hrec => absurd hrec (entry?_none hs hnone)⟩

theorem needsName_of_isUnplaced {entry : ReachableSchema} (h : t.isUnplaced entry = true) :
    entry.kind.needsName = true := by
  simp only [isUnplaced, Bool.and_eq_true] at h
  exact h.1

theorem not_contains_of_isUnplaced {entry : ReachableSchema} (h : t.isUnplaced entry = true) :
    t.contains entry.id = false := by
  simp only [isUnplaced, Bool.and_eq_true, Bool.not_eq_true'] at h
  exact h.2

theorem adopt_meets (hs : d.Searched o r) (ht : t.Sound d o) {entry : ReachableSchema}
    (he : entry ∈ r.entries) :
    Meets (adopt d t entry) (fun t' => Extends d o t t' ∧
      (t' = t ∨ t.isUnplaced entry = true ∧ t'.contains entry.id = true)) fun _ => False := by
  have hrec : d.Recorded o entry.id entry.kind := (hs.entries _ _).1 ⟨entry.path, he⟩
  unfold adopt
  split
  · next hopen =>
    have hnew := not_contains_of_isUnplaced hopen
    split
    · next p segment howner =>
      refine (add_meets hs.followable ht (Step.owned hrec hnew howner)).weaken fun t' h => ?_
      exact ⟨h.1, .inr ⟨hopen, h.2⟩⟩
    · exact ⟨.refl d o t, .inl rfl⟩
  · exact ⟨.refl d o t, .inl rfl⟩

theorem isUnplaced_of_run (hr : Run d o t t') {entry : ReachableSchema}
    (h : t'.isUnplaced entry = true) : t.isUnplaced entry = true := by
  simp only [isUnplaced, Bool.and_eq_true, Bool.not_eq_true'] at h ⊢
  refine ⟨h.1, Bool.eq_false_iff.2 fun hc => ?_⟩
  rw [hr.contains hc] at h
  cases h.2

theorem foldlM_adopt_meets (hs : d.Searched o r) (ht : t.Sound d o) :
    Meets (r.entries.foldlM (adopt d) t) (fun t' => Extends d o t t' ∧
      (t' = t ∨ ∃ e ∈ r.entries, t.isUnplaced e = true ∧ t'.contains e.id = true))
      fun _ => False := by
  refine Meets.foldlM (fun _ t' => Extends d o t t' ∧
      (t' = t ∨ ∃ e ∈ r.entries, t.isUnplaced e = true ∧ t'.contains e.id = true))
    ⟨.refl d o t, .inl rfl⟩ ?_
  intro done entry rest t' hsplit ⟨hext, hplaced⟩
  have he : entry ∈ r.entries := by simp [hsplit]
  refine (adopt_meets hs (ht.run hext.run) he).weaken fun t'' ⟨hext', hnew⟩ => ?_
  refine ⟨hext.trans hext', ?_⟩
  rcases hnew with rfl | ⟨hopen, hc⟩
  · exact hplaced
  · exact .inr ⟨entry, he, isUnplaced_of_run hext.run hopen, hc⟩

def openEntries (t : ModelTree) (entries : List ReachableSchema) : Nat :=
  entries.countP t.isUnplaced

theorem openEntries_le (hr : Run d o t t') (entries : List ReachableSchema) :
    t'.openEntries entries ≤ t.openEntries entries :=
  List.countP_mono_left fun _ _ h => isUnplaced_of_run hr h

theorem openEntries_lt (hr : Run d o t t') {entries : List ReachableSchema}
    {entry : ReachableSchema} (he : entry ∈ entries) (hopen : t.isUnplaced entry = true)
    (hc : t'.contains entry.id = true) : t'.openEntries entries < t.openEntries entries := by
  obtain ⟨before, after, rfl⟩ := List.append_of_mem he
  have hclosed : t'.isUnplaced entry = false := by simp [isUnplaced, hc]
  have hbefore := openEntries_le hr before
  have hafter := openEntries_le hr after
  simp only [openEntries, List.countP_append, List.countP_cons, hopen, hclosed, if_true] at *
  simp only [Bool.false_eq_true, if_false]
  omega

theorem promote_meets (hs : d.Searched o r) (ht : t.Sound d o) {entry : ReachableSchema}
    (he : entry ∈ r.entries) (hopen : t.isUnplaced entry = true) :
    Meets (t.promote d entry) (fun t' => Extends d o t t' ∧ t'.contains entry.id = true)
      fun _ => False := by
  have hrec : d.Recorded o entry.id entry.kind := (hs.entries _ _).1 ⟨entry.path, he⟩
  unfold promote
  refine (add_meets hs.followable (ht.run (.single (.note t _)))
    (Step.root _ hrec (not_contains_of_isUnplaced hopen))).weaken fun t' h => ?_
  exact ⟨(Extends.note _).trans h.1, h.2⟩

/-- A round that is not the last one: it adopts entries, or it finds an owner for none and promotes
the first that is left. -/
inductive Round (d : Document) (r : Reachability) (t : ModelTree) : ModelTree → Prop
  | adopts {t' : ModelTree} : r.entries.foldlM (adopt d) t = .ok t' → t' ≠ t → Round d r t t'
  | promotes {entry : ReachableSchema} {t' : ModelTree} :
      r.entries.foldlM (adopt d) t = .ok t → r.entries.find? t.isUnplaced = some entry →
        t.promote d entry = .ok t' → Round d r t t'

def Places (r : Reachability) (t t' : ModelTree) : Prop :=
  ∃ e ∈ r.entries, t.isUnplaced e = true ∧ t'.contains e.id = true

def Settled (t : ModelTree) (r : Reachability) : Prop :=
  ∀ e ∈ r.entries, e.kind.needsName = true → t.contains e.id = true

theorem settled_iff : t.Settled r ↔ ∀ e ∈ r.entries, t.isUnplaced e = false := by
  simp [Settled, isUnplaced]

theorem Places.openEntries_lt (h : Places r t t') (hrun : Run d o t t') :
    t'.openEntries r.entries < t.openEntries r.entries := by
  obtain ⟨e, he, hopen, hplaced⟩ := h
  exact ModelTree.openEntries_lt hrun he hopen hplaced

theorem Places.length_lt (h : Places r t t') (hrun : Run d o t t') :
    t.nodes.length < t'.nodes.length := by
  obtain ⟨e, _, hopen, hplaced⟩ := h
  obtain ⟨more, hmore⟩ := hrun.labels
  have hne : more ≠ [] := by
    rintro rfl
    rw [List.append_nil] at hmore
    rw [contains_iff, hmore, ← contains_iff, not_contains_of_isUnplaced hopen] at hplaced
    cases hplaced
  have hlength := congrArg List.length hmore
  rw [List.length_append, length_labels, length_labels] at hlength
  have hpos := List.length_pos_iff.2 hne
  omega

theorem Round.places (h : Round d r t t') (hs : d.Searched o r) (ht : t.Sound d o) :
    Extends d o t t' ∧ Places r t t' := by
  cases h with
  | adopts hadopted hgrown =>
    obtain ⟨hext, hround⟩ := (foldlM_adopt_meets hs ht).of_ok hadopted
    exact ⟨hext, hround.resolve_left hgrown⟩
  | promotes _ hfound hpromoted =>
    have he := List.mem_of_find?_eq_some hfound
    have hopen : t.isUnplaced _ = true := List.find?_some hfound
    obtain ⟨hext, hplaced⟩ := (promote_meets hs ht he hopen).of_ok hpromoted
    exact ⟨hext, _, he, hopen, hplaced⟩

theorem extends_of_rounds (h : Relation.ReflTransGen (Round d r) t t') (hs : d.Searched o r)
    (ht : t.Sound d o) : Extends d o t t' := by
  induction h with
  | refl => exact .refl d o t
  | tail _ hround ih => exact ih.trans (hround.places hs (ht.run ih.run)).1

theorem settle_rounds (hs : d.Searched o r) (rounds : Nat) (ht : t.Sound d o)
    (hrounds : t.openEntries r.entries < rounds) :
    ∃ t', settle d r.entries rounds t = .ok t' ∧ Relation.ReflTransGen (Round d r) t t' ∧
      t'.Settled r := by
  induction rounds generalizing t with
  | zero => omega
  | succ rounds ih =>
    have hgo : ∀ next, Round d r t next → ∃ t', settle d r.entries rounds next = .ok t' ∧
        Relation.ReflTransGen (Round d r) t t' ∧ t'.Settled r := by
      intro next hround
      obtain ⟨hext, hplaces⟩ := hround.places hs ht
      have hlt := hplaces.openEntries_lt hext.run
      obtain ⟨t', hsettle, hrest, hsettled⟩ := ih (ht.run hext.run) (by omega)
      exact ⟨t', hsettle, .head hround hrest, hsettled⟩
    obtain ⟨adopted, hadopted, hext, hplaces⟩ := (foldlM_adopt_meets hs ht).exists_ok
    simp only [settle, hadopted, bind, Except.bind]
    rcases hplaces with rfl | hplaces
    · rw [if_neg (Nat.lt_irrefl _)]
      split
      · next entry hfound =>
        have he := List.mem_of_find?_eq_some hfound
        have hopen : adopted.isUnplaced entry = true := List.find?_some hfound
        obtain ⟨next, hpromoted, _⟩ := (promote_meets hs ht he hopen).exists_ok
        rw [hpromoted]
        exact hgo next (.promotes hadopted hfound hpromoted)
      · next hnone =>
        refine ⟨adopted, rfl, .refl, settled_iff.2 fun e he => ?_⟩
        simpa using List.find?_eq_none.1 hnone e he
    · have hgrown := Places.length_lt hplaces hext.run
      rw [if_pos hgrown]
      refine hgo adopted (.adopts hadopted ?_)
      rintro rfl
      exact Nat.lt_irrefl _ hgrown

theorem settle_meets (hs : d.Searched o r) (rounds : Nat) (ht : t.Sound d o)
    (hrounds : t.openEntries r.entries < rounds) :
    Meets (settle d r.entries rounds t)
      (fun t' => Extends d o t t' ∧ ∀ e ∈ r.entries, t'.isUnplaced e = false)
      fun _ => False := by
  obtain ⟨t', hsettle, hrun, hsettled⟩ := settle_rounds hs rounds ht hrounds
  rw [hsettle]
  exact ⟨extends_of_rounds hrun hs ht, settled_iff.1 hsettled⟩

structure Built (d : Document) (o : Options) (t : ModelTree) : Prop where
  run : Run d o {} t
  sound : t.Sound d o
  components : t.HoldsComponents d o d.schemas
  needed : ∀ id kind, d.Recorded o id kind → kind.needsName = true → t.contains id = true
  members : ∀ l ∈ t.labels, t.HoldsMembers d l

theorem build_meets (hs : d.Searched o r) : Meets (build d r) (Built d o) fun _ => False := by
  unfold build
  refine (addComponents_meets hs (.empty d o)).bind fun t _ ⟨hext, hcomponents⟩ => ?_
  have ht := (Sound.empty d o).run hext.run
  have hrounds : t.openEntries r.entries < r.entries.length + 1 :=
    Nat.lt_succ_of_le List.countP_le_length
  refine (settle_meets hs _ ht hrounds).weaken fun t' ⟨hext', hall⟩ => ?_
  have hfull := hext.trans hext'
  refine ⟨hfull.run, ht.run hext'.run, fun e he kind hrec => ?_, fun id kind hrec hk => ?_,
    fun l hl => ?_⟩
  · exact hext'.run.contains (hcomponents e he kind hrec)
  · obtain ⟨path, he⟩ := (hs.entries id kind).2 hrec
    simpa [isUnplaced, hk] using hall _ he
  · rcases hfull.full l hl with hl | hl
    · cases hl
    · exact hl

end ModelTree

end ApiModel
