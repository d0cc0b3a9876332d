import ApiModel.Proofs.ModelTree.Build

namespace ApiModel.ModelTree

inductive Placement (d : Document) (r : Reachability) : ModelTree → ModelTree → Prop
  | note (t : ModelTree) (n : Note) : Placement d r t (t.note n)
  | component {t : ModelTree} {name : String} {id : Nat} {entry : ReachableSchema} :
      (name, id) ∈ d.schemas → r.entry? id = some entry → t.contains id = false →
        Placement d r t (t.place id (.root (Naming.typeName name)) entry.kind none).2
  | owned {t : ModelTree} {entry : ReachableSchema} {p : Nat} {segment : String} :
      entry ∈ r.entries → t.isUnplaced entry = true →
        t.owner? d entry.id = some (p, segment) →
          Placement d r t (t.place entry.id ((t.namesAt p).child segment) entry.kind (some p)).2
  | promoted {t : ModelTree} {entry : ReachableSchema} :
      r.entries.find? t.isUnplaced = some entry → t.owner? d entry.id = none →
        (∀ l ∈ t.labels, t.HoldsMembers d l) →
          Placement d r t (t.place entry.id
            (.root (Naming.typeName (" ".intercalate entry.path))) entry.kind none).2
  | member {t : ModelTree} {p number id : Nat} {l : Label} {kind : SchemaClass} :
      t.labels[p]? = some l → l.kind = .sealed → (d.node l.id).oneOf[number]? = some id →
        (d.node id).reference = none → t.contains id = false → classify (d.node id) = .ok kind →
          Placement d r t (t.place id (l.names.child ("OneOf" ++ toString number)) kind (some p)).2

def Placements (d : Document) (r : Reachability) : ModelTree → ModelTree → Prop :=
  Relation.ReflTransGen (Placement d r)

variable {d : Document} {o : Options} {r : Reachability} {t t' : ModelTree} {id : Nat}
  {candidate : TypeNames} {kind : SchemaClass} {parent : Option Nat} {entry : ReachableSchema}

theorem Placement.step (hs : d.Searched o r) (h : Placement d r t t') : Step d o t t' := by
  cases h with
  | note n => exact .note t n
  | component _ hentry hnew => exact .root _ (entry?_some hs hentry) hnew
  | owned he hopen howner =>
    have hrec := (hs.entries _ _).1 ⟨_, he⟩
    exact .owned hrec (not_contains_of_isUnplaced hopen) howner
  | promoted hfind _ _ =>
    have hrec := (hs.entries _ _).1 ⟨_, List.mem_of_find?_eq_some hfind⟩
    exact .root _ hrec (not_contains_of_isUnplaced (List.find?_some hfind))
  | member hl hk hmember href hnew hkind => exact .member hl hk hmember href hnew hkind

theorem Placements.run (hs : d.Searched o r) (h : Placements d r t t') : Run d o t t' := by
  induction h with
  | refl => exact .refl
  | tail _ hstep ih => exact ih.tail (hstep.step hs)

theorem Placements.length_le (hs : d.Searched o r) (h : Placements d r t t') :
    t.nodes.length ≤ t'.nodes.length := by
  obtain ⟨more, hmore⟩ := (h.run hs).labels
  rw [← length_labels, ← length_labels, hmore, List.length_append]
  exact Nat.le_add_right _ _

theorem add_placements (hs : d.Searched o r) :
    Meets (add d id candidate kind parent t)
      (Placements d r (t.place id candidate kind parent).2) fun _ => True := by
  induction hn : d.arena.size - id using Nat.strongRecOn
    generalizing id candidate kind parent t with
  | ind n ih =>
    subst hn
    have hlabel := t.getElem?_labels_place id candidate kind parent
    rw [add_eq]
    split
    · next hk =>
      subst hk
      refine Meets.foldlM (fun _ t' => Placements d r (t.place id candidate .sealed parent).2 t')
        .refl ?_
      rintro done ⟨member, number⟩ rest t' hsplit hrun
      obtain ⟨hmember, hbehind⟩ := member_of_turn hsplit
      unfold addInline
      split
      · exact hrun
      · next hopen =>
        obtain ⟨href, hnew⟩ := isOpen_iff.1 hopen
        cases hkind : classify (d.node member) with
        | error e => trivial
        | ok kind =>
          have hstep : Placement d r t' _ :=
            .member ((hrun.run hs).getElem? hlabel) rfl hmember href hnew hkind
          refine (ih (d.arena.size - member) (by omega) rfl).weaken fun t'' h => ?_
          exact hrun.trans (.head hstep h)
    · exact .refl

theorem addComponents_placements (hs : d.Searched o r) :
    Meets (addComponents d r t) (Placements d r t) fun _ => True := by
  unfold addComponents
  refine Meets.foldlM (fun _ t' => Placements d r t t') .refl ?_
  rintro done ⟨name, id⟩ rest t' hsplit hrun
  have hmem : (name, id) ∈ d.schemas := by simp [hsplit]
  simp only
  split
  · next entry hentry =>
    split
    · exact hrun
    · next hnew =>
      have hstep : Placement d r t' _ := .component hmem hentry (by simpa using hnew)
      exact (add_placements hs).weaken fun t'' h => hrun.trans (.head hstep h)
  · exact hrun.tail (.note t' _)

def Adopted (d : Document) (t : ModelTree) (done : List ReachableSchema) (t' : ModelTree) : Prop :=
  (t' = t ∧ ∀ e ∈ done, t.isUnplaced e = true → t.owner? d e.id = none) ∨
    t.nodes.length < t'.nodes.length

theorem adopt_placements (hs : d.Searched o r) (he : entry ∈ r.entries) :
    Meets (adopt d t entry) (fun t' => Placements d r t t' ∧ Adopted d t [entry] t')
      fun _ => True := by
  unfold adopt
  split
  · next hopen =>
    split
    · next p segment howner =>
      have hstep : Placement d r t _ := .owned he hopen howner
      refine (add_placements hs).weaken fun t' h => ⟨.head hstep h, .inr ?_⟩
      have hle := h.length_le hs
      rw [length_place] at hle
      exact hle
    · next hnone => exact ⟨.refl, .inl ⟨rfl, List.forall_mem_singleton.2 fun _ => hnone⟩⟩
  · next hclosed =>
    exact ⟨.refl, .inl ⟨rfl, List.forall_mem_singleton.2 fun hopen => absurd hopen hclosed⟩⟩

theorem Adopted.next {done : List ReachableSchema} {t'' : ModelTree} (h : Adopted d t done t')
    (hnext : Adopted d t' [entry] t'') (hle : t.nodes.length ≤ t'.nodes.length)
    (hle' : t'.nodes.length ≤ t''.nodes.length) : Adopted d t (done ++ [entry]) t'' := by
  rcases h with ⟨rfl, hdone⟩ | hlt
  · rcases hnext with ⟨rfl, hentry⟩ | hlt
    · exact .inl ⟨rfl, List.forall_mem_append.2 ⟨hdone, hentry⟩⟩
    · exact .inr hlt
  · exact .inr (Nat.lt_of_lt_of_le hlt hle')

theorem foldlM_adopt_placements (hs : d.Searched o r) :
    Meets (r.entries.foldlM (adopt d) t)
      (fun t' => Placements d r t t' ∧ Adopted d t r.entries t') fun _ => True := by
  refine Meets.foldlM (fun done t' => Placements d r t t' ∧ Adopted d t done t')
    ⟨.refl, .inl ⟨rfl, by simp⟩⟩ ?_
  rintro done entry rest t' hsplit ⟨hrun, hdone⟩
  have he : entry ∈ r.entries := by simp [hsplit]
  refine (adopt_placements hs he).weaken fun t'' ⟨hnext, hentry⟩ => ?_
  exact ⟨hrun.trans hnext, hdone.next hentry (hrun.length_le hs) (hnext.length_le hs)⟩

theorem Extends.keeps_full (h : Extends d o t t') (hfull : ∀ l ∈ t.labels, t.HoldsMembers d l) :
    ∀ l ∈ t'.labels, t'.HoldsMembers d l := by
  intro l hl
  rcases h.full l hl with hold | hnew
  · exact (hfull l hold).run h.run
  · exact hnew

theorem promote_placements (hs : d.Searched o r) (ht : t.Sound d o)
    (hfull : ∀ l ∈ t.labels, t.HoldsMembers d l) (hfind : r.entries.find? t.isUnplaced = some entry)
    (hnone : t.owner? d entry.id = none) :
    Meets (promote d t entry) (fun t' => Placements d r t t' ∧ Extends d o t t') fun _ => True := by
  unfold promote
  simp only
  generalize Note.promoted (d.node entry.id).location
    (Naming.typeName (" ".intercalate entry.path)) = note
  have hrec := (hs.entries _ _).1 ⟨_, List.mem_of_find?_eq_some hfind⟩
  have hnew : (t.note note).contains entry.id = false :=
    not_contains_of_isUnplaced (List.find?_some hfind)
  have hsound : (t.note note).Sound d o := ht.step (.note t note)
  have hstep : Placement d r (t.note note) _ := .promoted hfind hnone hfull
  have hadd := add_meets hs.followable hsound (.root (" ".intercalate entry.path) hrec hnew)
  refine ((add_placements hs).and hadd).weaken fun t' ⟨hrun, hext, _⟩ => ⟨?_, ?_⟩
  · exact .head (.note t note) (.head hstep hrun)
  · exact (Extends.note note).trans hext

theorem settle_placements (hs : d.Searched o r) (rounds : Nat) (ht : t.Sound d o)
    (hfull : ∀ l ∈ t.labels, t.HoldsMembers d l) :
    Meets (settle d r.entries rounds t) (Placements d r t) fun _ => True := by
  induction rounds generalizing t with
  | zero => exact .refl
  | succ rounds ih =>
    unfold settle
    have hround := (foldlM_adopt_placements hs).and (foldlM_adopt_meets hs ht)
    apply hround.bind
    rintro adopted _ ⟨⟨hrun, hadopted⟩, hext, _⟩
    have hsound := ht.run hext.run
    have hmembers := hext.keeps_full hfull
    split
    · exact (ih hsound hmembers).weaken fun t' h => hrun.trans h
    · next hstill =>
      split
      · next entry hfind =>
        obtain ⟨rfl, hnone⟩ := hadopted.resolve_right hstill
        have hno := hnone entry (List.mem_of_find?_eq_some hfind) (List.find?_some hfind)
        apply (promote_placements hs hsound hmembers hfind hno).bind
        rintro t' _ ⟨hrun', hext'⟩
        refine (ih (hsound.run hext'.run) (hext'.keeps_full hmembers)).weaken fun t'' h => ?_
        exact hrun'.trans h
      · exact hrun

theorem build_placements (hs : d.Searched o r) :
    Meets (build d r) (Placements d r {}) fun _ => True := by
  unfold build
  have hstart := (addComponents_placements hs).and (addComponents_meets hs (.empty d o))
  apply hstart.bind
  rintro t _ ⟨hrun, hext, _⟩
  have hsound := (Sound.empty d o).run hext.run
  have hfull := hext.keeps_full fun l hl => by cases hl
  exact (settle_placements hs _ hsound hfull).weaken fun t' h => hrun.trans h

end ApiModel.ModelTree
