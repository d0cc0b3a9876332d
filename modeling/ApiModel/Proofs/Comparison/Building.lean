import ApiModel.Proofs.Comparison.Simulates
import ApiModel.Proofs.ModelTree.Build
/-!
Building over two documents side by side. It only asks a tree what it contains, which names are free
and who owns a schema; trees that answer alike stay alike.
-/

namespace ApiModel.ModelTree

variable {d d' : Document} {t t' : ModelTree} {id : Nat} {kind : SchemaClass}
  {candidate : TypeNames} {parent parent' : Option Nat}

/-- What building asks of two trees: they agree on the schemas that fit, up to where a parent
stands. -/
structure Parallel (d d' : Document) (fits : Nat → Prop) (like : ModelTree → ModelTree → Prop)
    (beside : Option Nat → Option Nat → Prop) : Prop where
  node : ∀ id, fits id → d'.node id = d.node id
  member : ∀ id, fits id → ∀ member ∈ (d.node id).oneOf, fits member
  same : ∀ p, beside p p
  length : ∀ t t', like t t' → t'.nodes.length = t.nodes.length
  contains : ∀ t t', like t t' → ∀ id, t'.contains id = t.contains id
  nameFor : ∀ t t', like t t' → ∀ names, t'.registry.nameFor names = t.registry.nameFor names
  note : ∀ t t', like t t' → ∀ n, like (t.note n) (t'.note n)
  place : ∀ t t', like t t' → ∀ id, fits id → t.contains id = false → ∀ p p', beside p p' →
    ∀ candidate kind, like (t.place id candidate kind p).2 (t'.place id candidate kind p').2
  owner : ∀ t t', like t t' → ∀ id, fits id → Option.Rel (fun x y => y.2 = x.2 ∧
    t'.namesAt y.1 = t.namesAt x.1 ∧ beside (some x.1) (some y.1)) (t.owner? d id) (t'.owner? d' id)

namespace Parallel

variable {fits : Nat → Prop} {like : ModelTree → ModelTree → Prop}
  {beside : Option Nat → Option Nat → Prop}

theorem add (hp : Parallel d d' fits like beside) (h : like t t') (hid : fits id)
    (hnew : t.contains id = false) (hparent : beside parent parent') :
    Simulates like (ModelTree.add d id candidate kind parent t)
      (ModelTree.add d' id candidate kind parent' t') := by
  -- inline members keep their numbers, so they ask for the same names below the same name
  induction hn : d.arena.size - id using Nat.strongRecOn
    generalizing id candidate kind parent parent' t t' with
  | ind n ih =>
    subst hn
    have hplaced := hp.place t t' h id hid hnew parent parent' hparent candidate kind
    rw [add_eq, add_eq, hp.node id hid, hp.nameFor t t' h, hp.length t t' h]
    split
    · refine Simulates.foldlM hplaced fun e he u u' hu => ?_
      have hmember : e.1 ∈ (d.node id).oneOf := List.fst_mem_of_mem_zipIdx he
      have hfits := hp.member id hid e.1 hmember
      have hbounds := d.arena.child_bounds (SchemaNode.mem_childIds_of_mem_oneOf hmember)
      rw [addInline, addInline, hp.node e.1 hfits, hp.contains u u' hu]
      split
      · exact .ok hu
      · next hopen =>
        obtain ⟨_, hfresh⟩ := isOpen_iff.1 hopen
        refine (Simulates.refl _).bind_same fun kind => ?_
        exact ih (d.arena.size - e.1) (by omega) hu hfits hfresh (hp.same _) rfl
    · exact .ok hplaced

theorem isUnplaced (hp : Parallel d d' fits like beside) (h : like t t') :
    t'.isUnplaced = t.isUnplaced := by
  funext entry
  rw [ModelTree.isUnplaced, ModelTree.isUnplaced, hp.contains t t' h]

theorem adopt (hp : Parallel d d' fits like beside) (h : like t t') {entry : ReachableSchema}
    (hid : fits entry.id) :
    Simulates like (ModelTree.adopt d t entry) (ModelTree.adopt d' t' entry) := by
  unfold ModelTree.adopt
  rw [hp.isUnplaced h]
  split
  · next hopen =>
    have howner := hp.owner t t' h entry.id hid
    generalize t.owner? d entry.id = found at howner
    generalize t'.owner? d' entry.id = found' at howner
    cases howner with
    | none => exact .ok h
    | some hfound =>
      obtain ⟨hsegment, hnames, hparent⟩ := hfound
      simp only [hsegment, hnames]
      exact hp.add h hid (not_contains_of_isUnplaced hopen) hparent
  · exact .ok h

theorem promote (hp : Parallel d d' fits like beside) (h : like t t') {entry : ReachableSchema}
    (hid : fits entry.id) (hopen : t.isUnplaced entry = true) :
    Simulates like (ModelTree.promote d t entry) (ModelTree.promote d' t' entry) := by
  unfold ModelTree.promote
  rw [hp.node entry.id hid]
  exact hp.add (hp.note t t' h _) hid (not_contains_of_isUnplaced hopen) (hp.same none)

theorem settle (hp : Parallel d d' fits like beside) {entries : List ReachableSchema}
    (hentries : ∀ e ∈ entries, fits e.id) (rounds : Nat) (h : like t t') :
    Simulates like (ModelTree.settle d entries rounds t)
      (ModelTree.settle d' entries rounds t') := by
  induction rounds generalizing t t' with
  | zero => exact .ok h
  | succ rounds ih =>
    unfold ModelTree.settle
    have hround : Simulates like (entries.foldlM (ModelTree.adopt d) t)
        (entries.foldlM (ModelTree.adopt d') t') :=
      .foldlM h fun e he u u' hu => hp.adopt hu (hentries e he)
    refine hround.bind fun adopted adopted' _ hadopted => ?_
    rw [hp.length t t' h, hp.length adopted adopted' hadopted, hp.isUnplaced hadopted]
    split
    · exact ih hadopted
    · split
      · next entry hfind =>
        have hfits := hentries entry (List.mem_of_find?_eq_some hfind)
        exact (hp.promote hadopted hfits (List.find?_some hfind)).bind fun u u' _ hu => ih hu
      · exact .ok hadopted

theorem build (hp : Parallel d d' fits like beside) {r : Reachability}
    (hentries : ∀ e ∈ r.entries, fits e.id)
    (hfirst : Simulates like (addComponents d r {}) (addComponents d' r {})) :
    Simulates like (ModelTree.build d r) (ModelTree.build d' r) :=
  hfirst.bind fun _ _ _ h => hp.settle hentries _ h

end Parallel

end ApiModel.ModelTree
