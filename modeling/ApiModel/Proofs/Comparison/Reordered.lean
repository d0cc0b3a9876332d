import ApiModel.Proofs.Comparison.Building
import ApiModel.Proofs.Comparison.Walking
import ApiModel.Proofs.ModelTree.Exact
import ApiModel.Proofs.ModelTree.Planned

namespace ApiModel

theorem NameRegistry.nameFor_perm {r r' : NameRegistry} (h : r'.taken.Perm r.taken)
    (candidate : TypeNames) : r'.nameFor candidate = r.nameFor candidate := by
  have hfree : ∀ tries number,
      r'.freeNumber candidate tries number = r.freeNumber candidate tries number := by
    intro tries
    induction tries with
    | zero => exact fun _ => rfl
    | succ tries ih =>
      intro number
      simp only [freeNumber, h.mem_iff, ih]
  simp only [nameFor, h.mem_iff, h.length_eq, hfree]

structure Document.Reordered (d d' : Document) : Prop where
  schemas : d'.schemas.Perm d.schemas
  rest : d' = { d with schemas := d'.schemas }

namespace Document.Reordered

variable {d d' : Document} {o : Options}

theorem symm (h : d.Reordered d') : d'.Reordered d where
  schemas := h.schemas.symm
  rest := by
    rw [h.rest]

theorem arena (h : d.Reordered d') : d'.arena = d.arena := by rw [h.rest]

theorem paths (h : d.Reordered d') : d'.paths = d.paths := by rw [h.rest]

theorem node (h : d.Reordered d') (id : Nat) : d'.node id = d.node id := by
  rw [Document.node, Document.node, h.arena]

theorem rooted (h : d.Reordered d') (hd : d.Rooted) : d'.Rooted where
  schemas e he := by
    rw [h.arena]
    exact hd.schemas e (h.schemas.mem_iff.1 he)
  distinct := (h.schemas.map Prod.snd).nodup_iff.2 hd.distinct
  paths := by
    rw [h.arena, h.paths]
    exact hd.paths

theorem get? (h : d.Reordered d') (hkeys : d.schemas.keys.Nodup) (name : String) :
    d'.schemas.get? name = d.schemas.get? name := by
  have hkeys' : d'.schemas.keys.Nodup := (h.schemas.map Prod.fst).nodup_iff.2 hkeys
  apply Option.ext
  intro id
  constructor
  · intro hid
    exact OrderedMap.get?_of_mem hkeys (h.schemas.mem_iff.1 (OrderedMap.mem_of_get? hid))
  · intro hid
    exact OrderedMap.get?_of_mem hkeys' (h.schemas.mem_iff.2 (OrderedMap.mem_of_get? hid))

theorem follow (h : d.Reordered d') (hkeys : d.schemas.keys.Nodup) (v : Visit) :
    d'.follow v = d.follow v := by
  have hresolve : d'.resolve? = d.resolve? := by
    funext reference
    simp only [resolve?, funext (h.get? hkeys)]
  simp only [Document.follow, h.node, hresolve]

theorem reachable (h : d.Reordered d') (hkeys : d.schemas.keys.Nodup)
    (hforced : ∀ e ∈ d.schemas, d.isForced o e.2 = false) :
    d'.reachable o = d.reachable o := by
  have hforced' : ∀ e ∈ d'.schemas, d'.isForced o e.2 = false := by
    intro e he
    rw [isForced, h.node]
    exact hforced e (h.schemas.mem_iff.1 he)
  have hwalk : ∀ visits r, d'.visitAll visits r = d.visitAll visits r := by
    intro visits r
    exact (visitAll_agrees (fun id (_ : True) => by rw [h.arena])
      (fun v _ => .of_eq (h.follow hkeys v)) (fun _ _ _ _ _ _ => trivial) visits r
      fun _ _ => trivial).eq
  simp only [Document.reachable, foldlM_keepForced hforced, foldlM_keepForced hforced', h.paths,
    hwalk]

end Document.Reordered

namespace ModelTree

structure Alike (d : Document) (t t' : ModelTree) : Prop where
  labels : t'.labels.Perm t.labels
  taken : t'.registry.taken.Perm t.registry.taken
  ids : (t.labels.map (·.id)).Nodup
  whole : ∀ l ∈ t.labels, ¬d.arena.IsMember l.id

variable {d d' : Document} {o : Options} {r : Reachability} {t t' : ModelTree}

theorem Alike.contains (h : Alike d t t') (id : Nat) : t'.contains id = t.contains id := by
  rw [Bool.eq_iff_iff, contains_iff, contains_iff]
  simp only [h.labels.mem_iff]

theorem Alike.place (h : Alike d t t') {id : Nat} (hid : ¬d.arena.IsMember id)
    (hnew : t.contains id = false) (p p' : Option Nat) (candidate : TypeNames)
    (kind : SchemaClass) :
    Alike d (t.place id candidate kind p).2 (t'.place id candidate kind p').2 where
  labels := by
    rw [labels_place, labels_place, NameRegistry.nameFor_perm h.taken]
    exact h.labels.append_right _
  taken := by
    rw [taken_place, taken_place, NameRegistry.nameFor_perm h.taken]
    exact h.taken.cons _
  ids := by
    have hfresh : id ∉ t.labels.map (·.id) := by
      intro hmem
      obtain ⟨l, hl, hl'⟩ := List.mem_map.1 hmem
      exact contains_false_iff.1 hnew l hl hl'
    rw [labels_place, List.map_append]
    exact List.concat_eq_append ▸ h.ids.concat hfresh
  whole := forall_mem_labels_place.2 ⟨h.whole, hid⟩

theorem Alike.owner (h : Alike d t t') (harena : d'.arena = d.arena) (id : Nat) :
    Option.Rel (fun x y => y.2 = x.2 ∧ t'.namesAt y.1 = t.namesAt x.1 ∧ True)
      (t.owner? d id) (t'.owner? d' id) := by
  have hsame : t'.owner? d' id = t'.owner? d id := by rw [owner?, owner?, harena]
  rw [hsame]
  -- no schema has two owners, so the order in which the trees list them does not decide
  cases howner : t.owner? d id with
  | none =>
    cases howner' : t'.owner? d id with
    | none => exact .none
    | some y =>
      obtain ⟨u, hu, hk, howns⟩ := owner?_holds howner'
      exact (not_owns_of_owner? howner (h.labels.mem_iff.1 (List.mem_of_getElem? hu)) hk howns).elim
  | some x =>
    obtain ⟨u, hu, hk, howns⟩ := owner?_holds howner
    have hmem := List.mem_of_getElem? hu
    cases howner' : t'.owner? d id with
    | none => exact (not_owns_of_owner? howner' (h.labels.mem_iff.2 hmem) hk howns).elim
    | some y =>
      obtain ⟨u', hu', hk', howns'⟩ := owner?_holds howner'
      have hmem' := h.labels.mem_iff.1 (List.mem_of_getElem? hu')
      obtain ⟨hid, hsegment⟩ := howns.unique howns' (h.whole u hmem) (h.whole u' hmem')
      have hlabel := List.inj_on_of_nodup_map h.ids hmem hmem' hid
      refine .some ⟨hsegment.symm, ?_, trivial⟩
      rw [namesAt_of_label hu, namesAt_of_label hu', hlabel]

theorem alike_parallel (h : d.Reordered d') :
    Parallel d d' (fun id => ¬d.arena.IsMember id) (Alike d) fun _ _ => True where
  node id _ := h.node id
  member id _ member hmember hin := by
    obtain ⟨place, hslot⟩ := SchemaNode.mem_oneOf.1 hmember
    rw [Arena.isMember_iff hslot] at hin
    cases hin
  same _ := trivial
  length t t' ht := by rw [← length_labels, ht.labels.length_eq, length_labels]
  contains t t' ht := ht.contains
  nameFor t t' ht := NameRegistry.nameFor_perm ht.taken
  note t t' ht n := ⟨ht.labels, ht.taken, ht.ids, ht.whole⟩
  place t t' ht id hid hnew p p' _ candidate kind := ht.place hid hnew p p' candidate kind
  owner t t' ht id _ := ht.owner h.arena id

theorem Planned.reordered (h : d.Reordered d') {l : Label} (hl : Planned d r l) :
    Planned d' r l := by
  induction hl with
  | component hmem hentry => exact .component (h.schemas.mem_iff.2 hmem) hentry
  | member _ hk hmember href hclass ih =>
    rw [← h.node] at hmember href hclass
    exact .member ih hk hmember href hclass

theorem Apart.reordered (h : d.Reordered d') (hapart : Apart d r) : Apart d' r :=
  ((h.schemas.filter _).map _).nodup_iff.2 hapart

theorem addComponents_planned (hd : d.Rooted) (hs : d.Searched o r) (hapart : Apart d r) :
    ∃ t, addComponents d r {} = .ok t ∧ t.Sound d o ∧ (∀ l, l ∈ t.labels ↔ Planned d r l) ∧
      t.registry.taken = (t.labels.map (·.names)).reverse := by
  obtain ⟨t, ht, ⟨hext, hcomponents⟩, hseeded⟩ :=
    ((addComponents_meets hs (.empty d o)).and (addComponents_seeded hapart)).exists_ok
  refine ⟨t, ht, (Sound.empty d o).run hext.run, fun l => ?_, hseeded.registered⟩
  exact ⟨hseeded.planned l, hseeded.mem_labels hd hs hext hcomponents⟩

theorem addComponents_alike (hd : d.Rooted) (h : d.Reordered d') (hs : d.Searched o r)
    (hs' : d'.Searched o r) (hapart : Apart d r) :
    Simulates (Alike d) (addComponents d r {}) (addComponents d' r {}) := by
  obtain ⟨t, ht, hsound, hplanned, htaken⟩ := addComponents_planned hd hs hapart
  obtain ⟨t', ht', hsound', hplanned', htaken'⟩ :=
    addComponents_planned (h.rooted hd) hs' (hapart.reordered h)
  have hlabels : t'.labels.Perm t.labels := by
    refine (List.perm_ext_iff_of_nodup hsound'.ids.of_map hsound.ids.of_map).2 fun l => ?_
    rw [hplanned, hplanned']
    exact ⟨Planned.reordered h.symm, Planned.reordered h⟩
  rw [ht, ht']
  refine .ok ⟨hlabels, ?_, hsound.ids, fun l hl => (hsound.recorded l hl).not_isMember hd⟩
  rw [htaken, htaken']
  exact (List.reverse_perm _).trans ((hlabels.map _).trans (List.reverse_perm _).symm)

theorem build_reordered (hkeys : d.schemas.keys.Nodup) (h : d.Reordered d')
    (hall : o.generateAllNamedSchemas = false)
    (hforced : ∀ e ∈ d.schemas, (d.node e.2).extensions.forced ≠ some true) :
    d'.reachable o = d.reachable o ∧ (d.Rooted → ∀ r, d.reachable o = .ok r → Apart d r →
      ∃ t t', build d r = .ok t ∧ build d' r = .ok t' ∧ ∀ id, t'.names? id = t.names? id) := by
  have hunforced : ∀ e ∈ d.schemas, d.isForced o e.2 = false := by
    intro e he
    simpa [Document.isForced, hall] using hforced e he
  have hreach := h.reachable hkeys hunforced
  refine ⟨hreach, fun hd r hr hapart => ?_⟩
  have hs := (Document.reachable_meets hd o).of_ok hr
  have hs' := (Document.reachable_meets (h.rooted hd) o).of_ok (hreach.trans hr)
  obtain ⟨t, ht, hbuilt⟩ := (build_meets hs).exists_ok
  have hentries : ∀ e ∈ r.entries, ¬d.arena.IsMember e.id := fun e he =>
    ((hs.entries _ _).1 ⟨_, he⟩).not_isMember hd
  obtain ⟨t', ht', halike⟩ :=
    (alike_parallel h).build hentries (addComponents_alike hd h hs hs' hapart) t ht
  have hbuilt' := (build_meets hs').of_ok ht'
  refine ⟨t, t', ht, ht', fun id => Option.ext fun names => ?_⟩
  rw [hbuilt.sound.names?_iff, hbuilt'.sound.names?_iff]
  simp only [halike.labels.mem_iff]

def linked : Document :=
  let ref name : Json := .object [("$ref", .string ("#/components/schemas/" ++ name))]
  let fields entries : Json := .object [("properties", .object entries)]
  let leaf := fields [("x", .object [])]
  let content : Json := .object [("a", .object [("schema", fields [("a", ref "A")])])]
  let body : Json := .object [("content", content)]
  let schemas : Json :=
    .object [("A", fields [("k", leaf), ("K", leaf), ("b", ref "B")]), ("B", leaf)]
  (Document.ofRoot [("openapi", .string "3.1"), ("info", .object []),
    ("paths", .object [("/p", .object [("post", .object [("requestBody", body)])])]),
    ("components", .object [("schemas", schemas)])]).1

theorem build_reordered_linked : ∃ d' r t t', linked.Reordered d' ∧ d'.schemas.keys = ["B", "A"] ∧
    linked.reachable {} = .ok r ∧ d'.reachable {} = .ok r ∧ Apart linked r ∧
      build linked r = .ok t ∧ build d' r = .ok t' ∧
        t.labels.map (·.names.dotted) = ["A", "B", "A.K", "A.K2", "PostPRequest"] ∧
          ∀ id, t'.names? id = t.names? id := by
  have hcheck : (linked.reachable {}).toOption.any (fun r =>
      decide ((linked.schemas.filter fun e => (r.entry? e.2).isSome).map
        fun e => Naming.typeName e.1).Nodup && (build linked r).toOption.any fun t =>
          t.labels.map (·.names.dotted) = ["A", "B", "A.K", "A.K2", "PostPRequest"]) = true := by
    decide +kernel
  obtain ⟨r, hr, hrest⟩ := ok_of_any hcheck
  obtain ⟨hapart, hbuilt⟩ := Bool.and_eq_true_iff.1 hrest
  obtain ⟨u, hu, hlabels⟩ := ok_of_any hbuilt
  have hapart := of_decide_eq_true hapart
  have hreordered : linked.Reordered { linked with schemas := linked.schemas.reverse } :=
    ⟨List.reverse_perm _, rfl⟩
  obtain ⟨hreach, hsame⟩ := build_reordered (o := {}) (by decide +kernel) hreordered rfl
    (by decide +kernel)
  obtain ⟨t, t', ht, ht', hnames⟩ := hsame (Document.rooted_ofRoot _) r hr hapart
  cases hu.symm.trans ht
  exact ⟨_, r, u, t', hreordered, by decide +kernel, hr, hreach.trans hr, hapart, ht, ht',
    of_decide_eq_true hlabels, hnames⟩

/-- One component under two names, as no load leaves it. -/
def twins : Document := { linked with schemas := ("Z", 0) :: linked.schemas }

theorem twins_named_by_order : ∃ d' r t t', twins.Reordered d' ∧ twins.schemas.keys.Nodup ∧
    (∀ e ∈ twins.schemas, (twins.node e.2).extensions.forced ≠ some true) ∧
      twins.reachable {} = .ok r ∧ d'.reachable {} = .ok r ∧ Apart twins r ∧
        build twins r = .ok t ∧ build d' r = .ok t' ∧
          t.names? 0 = some (.root "Z") ∧ t'.names? 0 = some (.root "A") := by
  have hkeys : twins.schemas.keys.Nodup := by decide +kernel
  have hforced : ∀ e ∈ twins.schemas, (twins.node e.2).extensions.forced ≠ some true := by
    decide +kernel
  have hreordered : twins.Reordered { twins with schemas := linked.schemas ++ [("Z", 0)] } :=
    ⟨List.perm_append_singleton _ _, rfl⟩
  have hcheck : (twins.reachable {}).toOption.any (fun r =>
      decide ((twins.schemas.filter fun e => (r.entry? e.2).isSome).map
        fun e => Naming.typeName e.1).Nodup &&
      ((build twins r).toOption.any fun t => t.names? 0 = some (.root "Z")) &&
        (build { twins with schemas := linked.schemas ++ [("Z", 0)] } r).toOption.any fun t =>
          t.names? 0 = some (.root "A")) = true := by
    decide +kernel
  obtain ⟨r, hr, hrest⟩ := ok_of_any hcheck
  obtain ⟨hrest, hlast⟩ := Bool.and_eq_true_iff.1 hrest
  obtain ⟨hapart, hfirst⟩ := Bool.and_eq_true_iff.1 hrest
  obtain ⟨t, ht, hnames⟩ := ok_of_any hfirst
  obtain ⟨t', ht', hnames'⟩ := ok_of_any hlast
  have hapart := of_decide_eq_true hapart
  have hreach := hreordered.reachable (o := {}) hkeys fun e he => by
    simpa [Document.isForced] using hforced e he
  exact ⟨_, r, t, t', hreordered, hkeys, hforced, hr, hreach.trans hr, hapart, ht, ht',
    of_decide_eq_true hnames, of_decide_eq_true hnames'⟩

end ModelTree

end ApiModel
