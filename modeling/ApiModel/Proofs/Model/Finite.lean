import ApiModel.Proofs.Document.Resolution
import ApiModel.Proofs.Model.Checked
import ApiModel.Proofs.ModelTree.Rounds

namespace ApiModel

open Relation (ReflTransGen)

inductive SimpleType.Proper : SimpleType → Prop
  | any : Proper .any
  | ref (names : TypeNames) : Proper (.ref names)
  | primitive (type : PrimitiveType) : Proper (.primitive type)
  | array {items : SimpleType} (nullable : Bool) : Proper items → Proper (.array items nullable)
  | map {items : SimpleType} (nullable : Bool) : Proper items → Proper (.map items nullable)

namespace Context

variable {c : Context} {id element : Nat}

theorem Wraps.mem_childIds (h : c.Wraps id element) :
    element ∈ (c.document.arena.node id).childIds := by
  have hslot : ∃ slot, (c.document.arena.node id).child? slot = some element := by
    obtain ⟨_, _, ⟨_, hitems⟩ | ⟨_, hvalues⟩⟩ := h
    · exact ⟨.items, hitems⟩
    · exact ⟨.values, hvalues⟩
  obtain ⟨slot, hchild⟩ := hslot
  exact SchemaNode.mem_childIds_of_child? hchild

theorem typeOf_proper (c : Context) (id : Nat) :
    Meets (c.typeOf id) SimpleType.Proper fun _ => True := by
  fun_induction Context.typeOf c id with
  | case1 id n reference href =>
    refine Meets.map ?_
    cases c.namedReference reference n.location with
    | ok names => exact .ref names
    | error e => trivial
  | case2 id n href names hnames => exact .ref names
  | case3 => trivial
  | case4 id n href hnames primitive hk => exact .primitive primitive
  | case5 id n href hnames hk element hitems ih => exact Meets.map (ih.weaken fun _ => .array _)
  | case6 => exact .array true .any
  | case7 id n href hnames hk element hvalues ih => exact Meets.map (ih.weaken fun _ => .map _)
  | case8 => exact SimpleType.Proper.map true .any
  | case9 => exact .any
  | case10 => trivial

theorem namedReference_within (c : Context) (reference location : String) :
    (∃ e, c.document.resolveChain reference location = .error e ∧
      c.namedReference reference location = .error e) ∨
    c.tree.nameWithin c.document location c.document.schemas.length reference =
      some (c.namedReference reference location) := by
  cases hchain : c.document.resolveChain reference location with
  | error e => exact .inl ⟨e, rfl, ModelTree.namedReference_of_error hchain⟩
  | ok target =>
    obtain ⟨links, hlinks⟩ := ModelTree.links_of_resolveChain hchain
    refine .inr ?_
    rw [namedReference, ModelTree.namedReference_of_links hlinks]
    refine ModelTree.nameWithin_of_links hlinks location ?_
    calc links.length ≤ (c.document.unseen []).length := ModelTree.length_links_le hlinks
      _ ≤ c.document.schemas.values.length := List.length_filter_le _ _
      _ = c.document.schemas.length := List.length_map _

end Context

namespace ModelTree

variable {d : Document} {o l : Options} {r : Reachability} {text : String}
  {complaints : List String}

theorem naming_ends (hload : Document.load text l = .ok (d, complaints))
    (hr : d.reachable o = .ok r) :
    (∃ start t, addComponents d r {} = .ok start ∧ build d r = .ok t ∧
      ReflTransGen (Round d r) start t ∧ t.Settled r ∧
      ∀ reached, ReflTransGen (Round d r) start reached →
        (reached = t ↔ ∀ next, ¬Round d r reached next) ∧
        ∀ next, Round d r reached next → Places r reached next ∧
          next.openEntries r.entries < reached.openEntries r.entries) ∧
    d.Grounded ∧
    ∀ c : Context, c.document = d →
      WellFounded (fun element id => c.Wraps id element) ∧
      (∀ reference location, (∃ e, d.resolveChain reference location = .error e ∧
          c.namedReference reference location = .error e) ∨
        c.tree.nameWithin d location d.schemas.length reference =
          some (c.namedReference reference location)) ∧
      ∀ id type, c.typeOf id = .ok type → type.Proper := by
  have hs := (Document.reachable_meets (Document.rooted_of_load hload) o).of_ok hr
  obtain ⟨start, hstart, hext, _⟩ := (addComponents_meets hs (.empty d o)).exists_ok
  have hsound : start.Sound d o := (Sound.empty d o).run hext.run
  have hrounds : start.openEntries r.entries < r.entries.length + 1 :=
    Nat.lt_succ_of_le List.countP_le_length
  obtain ⟨t, hsettle, hrun, hsettled⟩ := settle_rounds hs _ hsound hrounds
  have hbuild : build d r = .ok t := by
    rw [build, hstart]
    exact hsettle
  refine ⟨⟨start, t, hstart, hbuild, hrun, hsettled, fun reached hreached => ?_⟩, d.grounded, ?_⟩
  · refine ⟨stop_iff hs hsound hrun hsettled hreached, fun next hround => ?_⟩
    have hfull := extends_of_rounds hreached hs hsound
    obtain ⟨hstep, hplaces⟩ := hround.places hs (hsound.run hfull.run)
    exact ⟨hplaces, hplaces.openEntries_lt hstep.run⟩
  · rintro c rfl
    refine ⟨Arena.wellFounded_of_child fun _ _ => Context.Wraps.mem_childIds,
      c.namedReference_within, fun id _ htype => (c.typeOf_proper id).of_ok htype⟩

def entwined : String :=
  "\x7bopenapi: '3.1', info: \x7b\x7d, components: \x7bschemas: \x7b" ++
    "L: \x7btype: array, items: \x7banyOf: [\x7b$ref: '#/components/schemas/L'\x7d]\x7d\x7d, " ++
    "U: \x7boneOf: [\x7bproperties: \x7bs: \x7btype: array, items: \x7banyOf: [\x7b\x7d]" ++
    "\x7d\x7d\x7d\x7d]\x7d\x7d\x7d\x7d"

theorem entwined_builds : ∃ d r start t names, Document.load entwined {} = .ok (d, []) ∧
    d.reachable Document.keepAll = .ok r ∧ addComponents d r {} = .ok start ∧
      build d r = .ok t ∧ start.openEntries r.entries = 2 ∧ t.nodes.length = 5 ∧
        (Context.mk d {} ⟨t, {}⟩).typeOf 5 = .ok (.array (.ref names) false) := by
  have hcheck : ((Document.load entwined {}).toOption.any fun x => x.2.isEmpty &&
      (x.1.reachable Document.keepAll).toOption.any fun r =>
        (addComponents x.1 r {}).toOption.any fun start => (build x.1 r).toOption.any fun t =>
          ((Context.mk x.1 {} ⟨t, {}⟩).typeOf 5).toOption.any fun type =>
            decide (start.openEntries r.entries = 2 ∧ t.nodes.length = 5 ∧
              type = .array (.ref ⟨["U", "OneOf0", "SItem"]⟩) false)) = true := by
    decide +kernel
  obtain ⟨d, hload, hreached⟩ := quiet_of_any hcheck
  obtain ⟨r, hr, hadded⟩ := ok_of_any hreached
  obtain ⟨start, hstart, hbuilt⟩ := ok_of_any hadded
  obtain ⟨t, ht, htyped⟩ := ok_of_any hbuilt
  obtain ⟨type, htype, hfacts⟩ := ok_of_any htyped
  obtain ⟨hopen, hlength, rfl⟩ := of_decide_eq_true hfacts
  exact ⟨d, r, start, t, _, hload, hr, hstart, ht, hopen, hlength, htype⟩

theorem naming_ends_entwined : ∃ d r start t names, Document.load entwined {} = .ok (d, []) ∧
    d.reachable Document.keepAll = .ok r ∧ addComponents d r {} = .ok start ∧
      build d r = .ok t ∧ start.openEntries r.entries = 2 ∧ t.nodes.length = 5 ∧
        ReflTransGen (Round d r) start t ∧ t.Settled r ∧
          (∃ next, Round d r start next ∧ next.openEntries r.entries < 2) ∧ d.Grounded ∧
            (SimpleType.array (.ref names) false).Proper := by
  obtain ⟨d, r, start, t, names, hload, hr, hstart, ht, hopen, hlength, htype⟩ := entwined_builds
  obtain ⟨⟨start', t', hstart', ht', hrounds, hsettled, hall⟩, hgrounded, htypes⟩ :=
    naming_ends hload hr
  obtain rfl : start = start' := Except.ok.inj (hstart.symm.trans hstart')
  obtain rfl : t = t' := Except.ok.inj (ht.symm.trans ht')
  have hproper := (htypes (Context.mk d {} ⟨t, {}⟩) rfl).2.2 5 _ htype
  refine ⟨d, r, start, t, names, hload, hr, hstart, ht, hopen, hlength, hrounds, hsettled, ?_,
    hgrounded, hproper⟩
  rcases hrounds.cases_head with rfl | ⟨next, hround, _⟩
  · have hnone : start.openEntries r.entries = 0 :=
      List.countP_eq_zero.2 fun e he => by simp [settled_iff.1 hsettled e he]
    rw [hopen] at hnone
    cases hnone
  · have hlt := ((hall start .refl).2 next hround).2
    rw [hopen] at hlt
    exact ⟨next, hround, hlt⟩

end ModelTree

end ApiModel
