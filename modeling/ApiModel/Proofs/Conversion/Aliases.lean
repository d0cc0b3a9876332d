import ApiModel.Proofs.Conversion.Converted
import ApiModel.Proofs.Document.Chains
import ApiModel.Proofs.Union.Tags

namespace ApiModel

open Relation (ReflTransGen TransGen)

namespace SpecModel

def PointsAt (m : SpecModel) (s s' : NamedSchema) : Prop :=
  ∃ target, s.shape = .ref target ∧ m.findSchema? target = some s'

theorem pointsAt_unique (m : SpecModel) : Relator.RightUnique m.PointsAt := by
  rintro s s' s'' ⟨target, hshape, hfound⟩ ⟨target', hshape', hfound'⟩
  rw [hshape] at hshape'
  cases hshape'
  exact Option.some.inj (hfound.symm.trans hfound')

end SpecModel

theorem FirstNamed.refersTo {d : Document} {t : ModelTree} {id : Nat} {text : String}
    {names : TypeNames} (href : (d.node id).reference = some text)
    (h : FirstNamed d t text names) :
    ∃ target, TransGen d.RefersTo id target ∧ t.names? target = some names := by
  induction h generalizing id with
  | @here reference target names hfound hnames =>
    exact ⟨target, .single ⟨reference, href, hfound⟩, hnames⟩
  | @along reference next target names hfound _ hnext _ ih =>
    obtain ⟨last, hlast, hnames⟩ := ih hnext
    exact ⟨last, .head ⟨reference, href, hfound⟩ hlast, hnames⟩

namespace Context

variable {c : Context} {m : SpecModel} {s : NamedSchema} {n : ModelNode} {index id terminal : Nat}
  {target : TypeNames} {shape : SchemaShape}

theorem shapeOf_of_ref (hk : n.kind = .ref) (h : c.shapeOf index n = .ok shape) :
    ∃ text target, (c.node n.id).reference = some text ∧
      c.namedReference text (c.node n.id).location = .ok target ∧ shape = .ref target := by
  simp only [shapeOf, hk] at h
  split at h
  · next text href =>
    obtain ⟨target, htarget, h⟩ := ok_of_bind h
    cases h
    exact ⟨text, target, href, htarget, rfl⟩
  · cases h

theorem shapeOf_ne_ref (hk : n.kind ≠ .ref) (h : c.shapeOf index n = .ok shape)
    (target : TypeNames) : shape ≠ .ref target := by
  rintro rfl
  unfold shapeOf at h
  simp only at h
  split at h
  · cases h
  · cases h
  · obtain ⟨_, _, h⟩ := ok_of_bind h
    cases h
  · obtain ⟨_, _, h⟩ := ok_of_bind h
    cases h
  · obtain ⟨_, _, h⟩ := ok_of_bind h
    cases h
  · split at h <;> cases h
  · next href => exact hk href
  · cases h

def Shows (c : Context) (s : NamedSchema) (id : Nat) : Prop :=
  ∃ index n, c.tree.node? index = some n ∧ n.id = id ∧ c.Renders index s

theorem Shows.node (h : c.Shows s id) : ∃ index n, c.tree.node? index = some n ∧ n.id = id ∧
    s.names = n.names ∧ c.shapeOf index n = .ok s.shape := by
  obtain ⟨index, n, hn, hid, hrenders⟩ := h
  obtain ⟨n', hn', hnames, hshape⟩ := hrenders.node
  rw [hn] at hn'
  cases hn'
  exact ⟨index, n, hn, hid, hnames, hshape⟩

structure AliasEnds (c : Context) (m : SpecModel) (s last : NamedSchema) : Prop where
  reached : TransGen m.PointsAt s last
  plain : ∀ target, last.shape ≠ .ref target
  terminal : ∃ id text terminal, c.Shows s id ∧ (c.node id).reference = some text ∧
    c.document.resolveChain text (c.node id).location = .ok terminal ∧ c.Shows last terminal

theorem AliasEnds.acyclic {last : NamedSchema} (h : c.AliasEnds m s last) :
    ¬TransGen m.PointsAt s s := by
  have hstop : ∀ next, ¬m.PointsAt last next := fun _ ⟨target, halias, _⟩ => h.plain target halias
  exact acyclic_of_stop m.pointsAt_unique hstop h.reached.to_reflTransGen

end Context

namespace Converted

variable {c : Context} {m : SpecModel} {s : NamedSchema} {id terminal : Nat} {target : TypeNames}

theorem shows (h : Converted c m) (hs : s ∈ m.allSchemas) : ∃ id, c.Shows s id := by
  obtain ⟨order, _, hall⟩ := h.order
  obtain ⟨index, _, hrenders⟩ := exists_of_mem_right hall hs
  obtain ⟨n, hn, _, _⟩ := hrenders.node
  exact ⟨n.id, index, n, hn, rfl, hrenders⟩

theorem named (h : Converted c m) (hs : c.Shows s id) : c.tree.names? id = some s.names := by
  obtain ⟨index, n, hn, rfl, hnames, _⟩ := hs.node
  have hsound := h.ready.resolved.built.sound
  exact hsound.names?_iff.2 ⟨n.label, ModelTree.label_mem hn, rfl, hnames.symm⟩

theorem shows_of_named (h : Converted c m) (hnamed : c.tree.names? id = some target) :
    ∃ s ∈ m.allSchemas, m.findSchema? target = some s ∧ c.Shows s id := by
  obtain ⟨s, hs, hnames, hfound⟩ := h.findSchema? (ModelTree.named_of_names? hnamed)
  obtain ⟨id', hshows⟩ := h.shows hs
  have hsound := h.ready.resolved.built.sound
  obtain ⟨l, hl, rfl, hlnames⟩ := ModelTree.names?_some hnamed
  obtain ⟨l', hl', rfl, hlnames'⟩ := ModelTree.names?_some (h.named hshows)
  have heq : l = l' := by
    refine List.inj_on_of_nodup_map hsound.names hl hl' ?_
    rw [hlnames, hlnames', hnames]
  exact ⟨s, hs, hfound, heq ▸ hshows⟩

theorem alias_cases (h : Converted c m) (hs : c.Shows s id) :
    (c.document.KeptAlias c.options id ∧ ∃ text target, (c.node id).reference = some text ∧
      FirstNamed c.document c.tree text target ∧ s.shape = .ref target) ∨
    (c.node id).reference = none ∧ ∀ target, s.shape ≠ .ref target := by
  obtain ⟨index, n, hn, rfl, _, hshape⟩ := hs.node
  have hrec := h.ready.resolved.built.sound.recorded n.label (ModelTree.label_mem hn)
  by_cases hk : n.kind = .ref
  · obtain ⟨text, target, href, htarget, halias⟩ := Context.shapeOf_of_ref hk hshape
    refine .inl ⟨?_, text, target, href, namedReference_first.of_ok htarget, halias⟩
    rcases hrec with ⟨_, hnone, _⟩ | ⟨hkept, _⟩
    · exact absurd (hnone.symm.trans href) (Option.some_ne_none text).symm
    · exact hkept
  · exact .inr ⟨hrec.reference_none hk, Context.shapeOf_ne_ref hk hshape⟩

theorem points_on (h : Converted c m) (hs : c.Shows s id) {text : String}
    (href : (c.node id).reference = some text) :
    ∃ s' ∈ m.allSchemas, m.PointsAt s s' ∧
      ∃ id', c.Shows s' id' ∧ TransGen c.document.RefersTo id id' := by
  rcases h.alias_cases hs with ⟨_, text', target, href', hfirst, halias⟩ | ⟨hnone, _⟩
  · obtain ⟨id', hlater, hnamed⟩ := hfirst.refersTo href'
    obtain ⟨s', hs', hfound, hshows⟩ := h.shows_of_named hnamed
    exact ⟨s', hs', ⟨target, halias, hfound⟩, id', hshows, hlater⟩
  · rw [hnone] at href
    cases href

theorem reaches_terminal (h : Converted c m) {start : Nat}
    (hchain : c.document.EndsAt start terminal) :
    ∀ {id}, ReflTransGen c.document.RefersTo start id → ∀ s ∈ m.allSchemas, c.Shows s id →
      ∃ last ∈ m.allSchemas, ReflTransGen m.PointsAt s last ∧
        (∀ target, last.shape ≠ .ref target) ∧ c.Shows last terminal := by
  obtain ⟨hreaches, hnone⟩ := hchain
  have hstop := Document.stops_of_no_reference hnone
  -- one hop may pass several aliases without a name, so the claim is about all that lies ahead
  induction hreaches using ReflTransGen.head_induction_on with
  | refl =>
    intro id hlater s hs hshows
    rcases hlater.cases_head with rfl | ⟨next, hnext, _⟩
    · rcases h.alias_cases hshows with ⟨_, text, _, href, _⟩ | ⟨_, hplain⟩
      · exact absurd (hnone.symm.trans href) (Option.some_ne_none text).symm
      · exact ⟨s, hs, .refl, hplain, hshows⟩
    · exact (hstop next hnext).elim
  | @head start next hstep _ ih =>
    intro id hlater s hs hshows
    rcases hlater.cases_head with rfl | ⟨next', hnext', hrest⟩
    · obtain ⟨text, href, hnext⟩ := hstep
      obtain ⟨s', hs', hpoints, id', hshows', hahead⟩ := h.points_on hshows href
      obtain ⟨next', hnext', hrest⟩ := TransGen.head'_iff.1 hahead
      obtain rfl := Document.refersTo_unique hnext' ⟨text, href, hnext⟩
      obtain ⟨last, hlast, hreaches, hplain⟩ := ih hrest s' hs' hshows'
      exact ⟨last, hlast, .head hpoints hreaches, hplain⟩
    · obtain rfl := Document.refersTo_unique hnext' hstep
      exact ih hrest s hs hshows

theorem aliasEnds (h : Converted c m) (hs : s ∈ m.allSchemas) (halias : s.shape = .ref target) :
    ∃ last ∈ m.allSchemas, c.AliasEnds m s last := by
  obtain ⟨id, hshows⟩ := h.shows hs
  rcases h.alias_cases hshows with ⟨hkept, text, _, href, _⟩ | ⟨_, hplain⟩
  · obtain ⟨terminal, hterminal⟩ := h.ready.followable.ends id text hkept href
    have hchain : c.document.EndsAt id terminal :=
      (Document.chain_cases c.document id).of_ok ((Document.chain_of_reference href).trans hterminal)
    obtain ⟨last, hlast, hreaches, hplain, hshown⟩ := h.reaches_terminal hchain .refl s hs hshows
    refine ⟨last, hlast, ?_, hplain, id, text, terminal, hshows, href, hterminal, hshown⟩
    rcases hreaches.cases_head with rfl | ⟨next, hnext, hrest⟩
    · exact absurd halias (hplain target)
    · exact TransGen.head'_iff.2 ⟨next, hnext, hrest⟩
  · exact absurd halias (hplain target)

theorem target_ne (h : Converted c m) (hs : s ∈ m.allSchemas) (halias : s.shape = .ref target)
    (hacyclic : ¬TransGen m.PointsAt s s) : target ≠ s.names := by
  rintro rfl
  obtain ⟨id, hshows⟩ := h.shows hs
  obtain ⟨s', hs', hnames, hfound⟩ := h.findSchema? (ModelTree.named_of_names? (h.named hshows))
  obtain rfl := List.inj_on_of_nodup_map h.names_nodup hs' hs hnames
  exact hacyclic (.single ⟨_, halias, hfound⟩)

end Converted

namespace Document

variable {d : Document} {o : Options}

theorem convert_aliases_end {text : String} {l : Options} {complaints : List String}
    (hload : load text l = .ok (d, complaints)) {moment : Timestamp} {m : SpecModel}
    {notes : List Note} (hc : d.convert o moment = .ok (m, notes)) :
    ∃ placed, d.placed o = .ok placed ∧ ∀ s ∈ m.allSchemas, ∀ target, s.shape = .ref target →
      target ≠ s.names ∧ ¬TransGen m.PointsAt s s ∧
        ∃ last ∈ m.allSchemas, Context.AliasEnds ⟨d, o, placed⟩ m s last := by
  obtain ⟨placed, hplaced, hconverted⟩ := converted_of_convert hload hc
  refine ⟨placed, hplaced, fun s hs target halias => ?_⟩
  obtain ⟨last, hlast, hends⟩ := hconverted.aliasEnds hs halias
  exact ⟨hconverted.target_ne hs halias hends.acyclic, hends.acyclic, last, hlast, hends⟩

def relayed : String :=
  "\x7bopenapi: '3.1', info: \x7b\x7d, components: \x7bschemas: \x7b" ++
    "Outer: \x7b$ref: '#/components/schemas/Middle', x-force-include: true\x7d, " ++
    "Middle: \x7b$ref: '#/components/schemas/Inner'\x7d, " ++
    "Inner: \x7b$ref: '#/components/schemas/Last', x-force-include: true\x7d, " ++
    "Last: \x7b\x7d\x7d\x7d\x7d"

theorem convert_aliases_end_relayed : ∃ d m notes placed, load relayed {} = .ok (d, []) ∧
    d.convert {} ⟨0, false⟩ = .ok (m, notes) ∧ d.placed {} = .ok placed ∧
      ∃ s ∈ m.allSchemas, s.shape = .ref (.root "Inner") ∧ s.names ≠ .root "Inner" ∧
        ∃ last ∈ m.allSchemas, Context.AliasEnds ⟨d, {}, placed⟩ m s last := by
  have hcheck : ((load relayed {}).toOption.any fun x => x.2.isEmpty &&
      (x.1.convert {} ⟨0, false⟩).toOption.any fun y =>
        decide (.ref (.root "Inner") ∈ y.1.allSchemas.map (·.shape))) = true := by
    decide +kernel
  obtain ⟨d, hload, hconverted⟩ := quiet_of_any hcheck
  obtain ⟨⟨m, notes⟩, hc, hmodel⟩ := ok_of_any hconverted
  obtain ⟨s, hs, halias⟩ := List.mem_map.1 (of_decide_eq_true hmodel)
  obtain ⟨placed, hplaced, hends⟩ := convert_aliases_end hload hc
  obtain ⟨hother, _, hlast⟩ := hends s hs _ halias
  exact ⟨d, m, notes, placed, hload, hc, hplaced, s, hs, halias, hother.symm, hlast⟩

end Document

end ApiModel
