import ApiModel.Proofs.Conversion.Converted
import ApiModel.Proofs.Schema.Ownership

namespace ApiModel

theorem Arena.lt_of_mem_ownProperties {a : Arena} {id : Nat} {e : String × Nat}
    (h : e ∈ a.ownProperties id) : e.2 < a.size := by
  obtain ⟨outer, _, hproperty⟩ := mem_ownProperties h
  have hchild := SchemaNode.mem_childIds_of_mem_children (SchemaNode.mem_properties.1 hproperty)
  exact (a.child_bounds hchild).2

namespace ModelTree

structure InRange (d : Document) (t : ModelTree) : Prop where
  ids : ∀ n ∈ t.nodes, n.id < d.arena.size
  roots : ∀ i ∈ t.roots, i < t.nodes.length
  parents : ∀ n ∈ t.nodes, ∀ p, n.parent = some p → p < t.nodes.length
  children : ∀ n ∈ t.nodes, ∀ c ∈ n.children, c < t.nodes.length
  owners : ∀ id p segment, t.owner? d id = some (p, segment) → p < t.nodes.length
  found : ∀ names i, t.find? names = some i → i < t.nodes.length
  unions : ∀ e ∈ Unions.placedIn t, e.1 < t.nodes.length

theorem Sound.inRange {d : Document} {o : Options} {t : ModelTree} (hd : d.Rooted)
    (h : t.Sound d o) : t.InRange d where
  ids n hn := hd.lt_of_reached (h.recorded n.label (List.mem_map.2 ⟨n, hn, rfl⟩)).reached
  roots i hi := ((h.forest.mem_roots i).1 hi).1
  parents n hn p hp := by
    obtain ⟨i, hi⟩ := List.getElem?_of_mem hn
    exact (h.forest.bounded i p (by rw [parent?, node?, hi]; exact hp)).2
  children n hn c hc := by
    obtain ⟨i, hi⟩ := List.getElem?_of_mem hn
    have hchild : c ∈ t.childrenAt i := by
      rw [childrenAt, node?, hi]
      exact hc
    exact (h.forest.bounded c i ((h.forest.mem_children i c).1 hchild)).1
  owners id p segment hp := by
    obtain ⟨⟨n, hn, _⟩, _⟩ := owner?_some hp
    exact lt_of_node? hn
  found names i hi := by
    obtain ⟨n, hn, _⟩ := find?_some hi
    exact lt_of_node? hn
  unions e he := by
    obtain ⟨n, hn, _⟩ := Unions.mem_placedIn.1 he
    exact lt_of_node? hn

end ModelTree

namespace Document

variable {d : Document} {o : Options}

structure InRange (d : Document) (o : Options) : Prop where
  shared : ∀ e ∈ d.schemas, e.2 < d.arena.size
  reached : ∀ id, d.Reached o id → id < d.arena.size
  parts : ∀ id, ∀ part ∈ (d.node id).childIds, part < d.arena.size
  targets : ∀ text target, d.resolve? text = some target → target < d.arena.size
  chains : ∀ reference location links, d.links reference location = .ok links →
    ∀ link ∈ links, link.id < d.arena.size
  elements : ∀ id element, d.arena.element? id = some element → element < d.arena.size
  own : ∀ id, ∀ e ∈ d.arena.ownProperties id, e.2 < d.arena.size
  merged : ∀ id, d.Reached o id → ∀ e ∈ (d.resolveProperties id).properties, e.2 < d.arena.size
  visited : ∀ r, d.reachable o = .ok r → ∀ id ∈ r.visited, id < d.arena.size
  recorded : ∀ r, d.reachable o = .ok r → ∀ e ∈ r.entries, e.id < d.arena.size
  built : ∀ r t, d.reachable o = .ok r → ModelTree.build d r = .ok t → ModelTree.Run d o {} t
  placed : ∀ p, d.placed o = .ok p → ModelTree.Run d o {} p.tree
  trees : ∀ t, ModelTree.Run d o {} t → t.InRange d
  constants : ∀ id names,
    (d.node id).extensions.constantNames.filter (·.length == (d.node id).constants.length) =
      some names → ∀ place < (d.node id).constants.length, place < names.length

theorem Rooted.inRange (hd : d.Rooted) (o : Options) : d.InRange o where
  shared e he := (hd.schemas e he).1
  reached _ := hd.lt_of_reached
  parts _ _ hp := (d.arena.child_bounds hp).2
  targets _ _ ht := (hd.resolve? ht).1
  chains reference location links hlinks link hlink := by
    have hends : Meets (d.links reference location) (d.Ends fun _ => True)
        ConversionError.Expected :=
      links_meets reference location (fun _ _ => trivial) fun _ _ _ _ _ _ => trivial
    obtain ⟨e, he, hid⟩ := List.mem_map.1 ((hends.of_ok hlinks).all link hlink).2
    exact hid ▸ (hd.schemas e he).1
  elements _ _ h := (Arena.element?_bounds h).2
  own _ _ := Arena.lt_of_mem_ownProperties
  merged _ hid e he := hd.lt_of_reached (usable_resolveProperties hid e he).reached
  visited _ hr id hid := hd.lt_of_reached (((reachable_meets hd o).of_ok hr).visited id hid)
  recorded _ hr e he := by
    have hrec := (((reachable_meets hd o).of_ok hr).entries e.id e.kind).1 ⟨e.path, he⟩
    exact hd.lt_of_reached hrec.reached
  built _ _ hr ht := ((ModelTree.build_meets ((reachable_meets hd o).of_ok hr)).of_ok ht).run
  placed _ hp := ((placed_meets hd o).of_ok hp).2.built.run
  trees _ ht := ((ModelTree.Sound.empty d o).run ht).inRange hd
  constants id names hn place hplace := by
    have hlength := (Option.filter_eq_some_iff.1 hn).2
    rw [beq_iff_eq] at hlength
    rwa [hlength]

theorem describe_ok_or_expected (hd : d.Rooted) (o : Options) :
    (∃ x, d.describe o = .ok x) ∨ ∃ e, d.describe o = .error e ∧ e.Expected := by
  cases hx : d.describe o with
  | ok x => exact .inl ⟨x, rfl⟩
  | error e => exact .inr ⟨e, rfl, (describe_meets hd o).of_error hx⟩

theorem convert_ok_expected_or_undated {text : String} {l : Options} {complaints : List String}
    (hload : load text l = .ok (d, complaints)) (o : Options) (moment : Timestamp) :
    ((moment.HasMailDate ∧ ∃ x, d.convert o moment = .ok x) ∨
      (∃ e, e.Expected ∧ ∀ other, d.convert o other = .error e) ∨
      (¬moment.HasMailDate ∧
        d.convert o moment = .error (.broken (.unwritableYear moment.clock.year)) ∧
          ∀ other, other.HasMailDate → ∃ x, d.convert o other = .ok x)) ∧ d.InRange o := by
  have hd := rooted_of_load hload
  refine ⟨?_, hd.inRange o⟩
  rcases describe_ok_or_expected hd o with ⟨x, hx⟩ | ⟨e, he, hexpected⟩
  · by_cases hdate : moment.HasMailDate
    · exact .inl ⟨hdate, exists_convert hx hdate⟩
    · exact .inr (.inr ⟨hdate, convert_undated hx hdate, fun other => exists_convert hx⟩)
  · exact .inr (.inl ⟨e, hexpected, fun other => convert_of_describe_error he⟩)

theorem convert_ok_expected_or_undated_sample : ∃ d, load sample {} = .ok (d, []) ∧
    (∃ x, d.convert keepAll ⟨0, false⟩ = .ok x) ∧
      d.convert keepAll ⟨253402300800, false⟩ = .error (.broken (.unwritableYear 10000)) ∧
        d.InRange keepAll := by
  obtain ⟨d, m, notes, hload, hc, _⟩ := sample_converts
  have hdate : ¬Timestamp.HasMailDate ⟨253402300800, false⟩ := by decide
  obtain ⟨⟨hdated, _⟩ | ⟨e, _, hall⟩ | ⟨_, herror, _⟩, hrange⟩ :=
    convert_ok_expected_or_undated hload keepAll ⟨253402300800, false⟩
  · exact absurd hdated hdate
  · cases (hall _).symm.trans hc
  · exact ⟨d, hload, ⟨_, hc⟩, herror, hrange⟩

def lastHour : String := "9999-12-31T23:59:59-01:00"

theorem lastHour_unanswered : ∃ d moment,
    load "\x7bopenapi: '3.1', info: \x7b\x7d, paths: \x7b\x7d\x7d" {} = .ok (d, []) ∧
      Timestamp.ofString? lastHour = some moment ∧ (∀ x, d.convert {} moment ≠ .ok x) ∧
        ∀ e, d.convert {} moment = .error e → ¬e.Expected := by
  have hcheck : ((load "\x7bopenapi: '3.1', info: \x7b\x7d, paths: \x7b\x7d\x7d"
      {}).toOption.any fun x => x.2.isEmpty &&
        (x.1.describe {}).toOption.any fun _ => true) = true := by
    decide +kernel
  obtain ⟨d, hload, hdescribed⟩ := quiet_of_any hcheck
  obtain ⟨x, hx, _⟩ := ok_of_any hdescribed
  have hmoment : Timestamp.ofString? lastHour = some ⟨253402304399, false⟩ := by decide +kernel
  have hdate : ¬Timestamp.HasMailDate ⟨253402304399, false⟩ := by decide
  have hcut := convert_undated hx hdate
  refine ⟨d, _, hload, hmoment, fun y hy => ?_, fun e he => ?_⟩
  · cases hcut.symm.trans hy
  · cases hcut.symm.trans he
    exact not_false

end Document

end ApiModel
