import ApiModel.Proofs.Document.Chains
import ApiModel.Proofs.ModelTree.Build
import ApiModel.Proofs.Schema.Appended

namespace ApiModel

open Relation (ReflTransGen)

namespace ModelTree

variable {d : Document} {o : Options} {r : Reachability} {t stop : ModelTree}

theorem Round.unique : Relator.RightUnique (Round d r) := by
  rintro t u v hu hv
  cases hu with
  | adopts hadopted hgrown =>
    cases hv with
    | adopts hadopted' _ => exact Except.ok.inj (hadopted.symm.trans hadopted')
    | promotes hadopted' _ _ =>
      exact absurd (Except.ok.inj (hadopted.symm.trans hadopted')) hgrown
  | promotes hadopted hfound hpromoted =>
    cases hv with
    | adopts hadopted' hgrown =>
      exact absurd (Except.ok.inj (hadopted'.symm.trans hadopted)) hgrown
    | promotes _ hfound' hpromoted' =>
      cases hfound.symm.trans hfound'
      exact Except.ok.inj (hpromoted.symm.trans hpromoted')

theorem stops_of_settled (h : t.Settled r) (hs : d.Searched o r) (ht : t.Sound d o) :
    ∀ next, ¬Round d r t next := by
  intro next hround
  obtain ⟨_, e, he, hopen, _⟩ := hround.places hs ht
  rw [settled_iff.1 h e he] at hopen
  cases hopen

theorem stop_iff (hs : d.Searched o r) (ht : t.Sound d o) (hstop : ReflTransGen (Round d r) t stop)
    (hsettled : stop.Settled r) {reached : ModelTree}
    (hreached : ReflTransGen (Round d r) t reached) :
    reached = stop ↔ ∀ next, ¬Round d r reached next := by
  have hlast := stops_of_settled hsettled hs (ht.run (extends_of_rounds hstop hs ht).run)
  refine ⟨fun h => h ▸ hlast, fun hends => ?_⟩
  exact eq_of_stops Round.unique hends hlast hreached hstop

end ModelTree

inductive Document.Descends (d : Document) (id : Nat) : Nat → Prop
  | element {inner : Nat} : d.arena.element? id = some inner → Descends d id inner
  | merged {inner : Nat} : inner ∈ (d.node id).merged → (d.node inner).reference = none →
      Descends d id inner
  | member {inner : Nat} : inner ∈ (d.node id).oneOf → (d.node inner).reference = none →
      Descends d id inner

theorem Arena.wellFounded_of_child {a : Arena} {into : Nat → Nat → Prop}
    (h : ∀ outer inner, into outer inner → inner ∈ (a.node outer).childIds) :
    WellFounded fun inner outer => into outer inner :=
  Subrelation.wf (r := fun inner outer => a.size - inner < a.size - outer) (fun hinto => by
    have hbounds := a.child_bounds (h _ _ hinto)
    omega) (measure fun id => a.size - id).wf

theorem Arena.segmentBelow?_eq (a : Arena) (target : Nat) (segment : String) (current : Nat) :
    a.segmentBelow? target segment current = if current = target then some segment
      else (a.element? current).bind (a.segmentBelow? target (segment ++ "Item")) := by
  fun_cases Arena.segmentBelow? a target segment current <;> simp_all

namespace Document

structure Grounded (d : Document) : Prop where
  finite : WellFounded fun inner outer => d.Descends outer inner
  ownProperties : ∀ id, d.arena.ownProperties id = OrderedMap.insertAll
    (((d.node id).merged.filter fun member => (d.node member).reference.isNone).foldl
      (fun (acc : OrderedMap String Nat) member => acc.insertAll (d.arena.ownProperties member)) [])
    (d.node id).properties
  segmentBelow : ∀ target segment id, d.arena.segmentBelow? target segment id =
    if id = target then some segment
    else (d.arena.element? id).bind (d.arena.segmentBelow? target (segment ++ "Item"))
  add : ∀ id candidate kind parent t, ModelTree.add d id candidate kind parent t =
    if kind = .sealed then (d.node id).oneOf.zipIdx.foldlM
      (ModelTree.addInline d (t.registry.nameFor candidate) t.nodes.length)
      (t.place id candidate kind parent).2
    else .ok (t.place id candidate kind parent).2

theorem Descends.mem_childIds {d : Document} {id inner : Nat} (h : d.Descends id inner) :
    inner ∈ (d.arena.node id).childIds := by
  cases h with
  | element helement => exact Arena.mem_childIds_of_element? helement
  | merged hmember _ => exact SchemaNode.mem_childIds_of_mem_merged hmember
  | member hmember _ => exact SchemaNode.mem_childIds_of_mem_oneOf hmember

theorem grounded (d : Document) : d.Grounded where
  finite := Arena.wellFounded_of_child fun _ _ => Descends.mem_childIds
  ownProperties := d.arena.ownProperties_eq
  segmentBelow := d.arena.segmentBelow?_eq
  add _ _ _ _ _ := ModelTree.add_eq

end Document

end ApiModel
