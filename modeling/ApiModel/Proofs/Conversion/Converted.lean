import ApiModel.Model.Writer
import ApiModel.Proofs.Conversion.Dated
import ApiModel.Proofs.Document.Loaded
import ApiModel.Proofs.Model.Operations
import ApiModel.Proofs.Model.Rendered

namespace ApiModel

namespace SpecModel

def mentions (m : SpecModel) : List TypeNames :=
  m.allSchemas.flatMap (·.shape.mentions) ++
    m.apis.flatMap (·.operations.flatMap SpecOperation.mentions) ++
    m.serialNames.keys ++ m.interfaces.flatMap fun e => e.1 :: e.2

end SpecModel

def Json.Keeps {α : Type} (j : Json) (m : OrderedMap TypeNames α) (value : α → Json) : Prop :=
  ∃ fields : OrderedMap String Json, j = .object fields ∧ fields.keys.Nodup ∧
    fields.length = m.length ∧ ∀ e ∈ m, fields.get? e.1.dotted = some (value e.2)

namespace SpecModel

theorem get?_serialNames (m : SpecModel) :
    m.toJson.get? "modelSerialNames" = some (namedTable .string m.serialNames) := by
  simp [toJson, Json.get?, Json.entries?, OrderedMap.get?]

theorem get?_interfaces (m : SpecModel) : m.toJson.get? "modelInterfaces" =
    some (namedTable (fun unions => .array (unions.map TypeNames.toJson)) m.interfaces) := by
  simp [toJson, Json.get?, Json.entries?, OrderedMap.get?]

end SpecModel

theorem keeps_namedTable {α : Type} (value : α → Json) {m : OrderedMap TypeNames α}
    (hnodup : m.keys.Nodup) (hplain : ∀ e ∈ m, e.1.Plain) :
    (namedTable value m).Keeps m value := by
  have hkeys : (m.map fun e => e.1.dotted).Nodup := by
    refine List.Nodup.map_on (fun e he f hf h => ?_) hnodup.of_map
    have hnames := (hplain e he).dotted_inj (hplain f hf) h
    exact List.inj_on_of_nodup_map hnodup he hf hnames
  refine ⟨m.map fun e => (e.1.dotted, value e.2), rfl, ?_, List.length_map _, fun e he => ?_⟩
  · rwa [OrderedMap.keys, List.map_map]
  · have hfield : (e.1.dotted, value e.2) ∈ m.map fun e => (e.1.dotted, value e.2) :=
      List.mem_map.2 ⟨e, he, rfl⟩
    refine OrderedMap.get?_of_mem ?_ hfield
    rwa [OrderedMap.keys, List.map_map]

structure Converted (c : Context) (m : SpecModel) : Prop where
  ready : c.Ready
  order : ∃ order : List Nat, order.Perm (List.range c.tree.nodes.length) ∧
    List.Forall₂ c.Renders order m.allSchemas
  mentions : ∀ names ∈ m.mentions, c.tree.Named names
  serialNames : m.serialNames = c.unions.serialNames
  interfaces : m.interfaces = c.unions.interfaces

namespace Converted

variable {c : Context} {m : SpecModel}

theorem map_names (h : Converted c m) :
    (m.allSchemas.map NamedSchema.names).Perm (c.tree.labels.map (·.names)) := by
  obtain ⟨order, hperm, hall⟩ := h.order
  have hnames : order.map c.tree.namesAt = m.allSchemas.map NamedSchema.names := by
    rw [← List.forall₂_eq_eq_eq, List.forall₂_map_left_iff, List.forall₂_map_right_iff]
    refine hall.imp fun index s hs => ?_
    obtain ⟨n, hn, hnames, _⟩ := hs.node
    rw [ModelTree.namesAt_of_node? hn, hnames]
  rw [← hnames]
  refine (hperm.map _).trans (.of_eq (List.ext_getElem? fun i => ?_))
  rw [List.getElem?_map, List.getElem?_map, ModelTree.getElem?_labels]
  by_cases hi : i < c.tree.nodes.length
  · obtain ⟨n, hn⟩ := ModelTree.exists_node hi
    rw [List.getElem?_range hi, hn, Option.map_some, ModelTree.namesAt_of_node? hn]
    rfl
  · have hnone : c.tree.node? i = none := List.getElem?_eq_none (Nat.le_of_not_lt hi)
    rw [List.getElem?_eq_none (by simpa using hi), hnone]
    rfl

theorem names_nodup (h : Converted c m) : (m.allSchemas.map NamedSchema.names).Nodup :=
  h.map_names.nodup_iff.2 h.ready.resolved.built.sound.names

theorem plain (h : Converted c m) : ∀ s ∈ m.allSchemas, s.names.Plain := by
  intro s hs
  have hmem := h.map_names.subset (List.mem_map.2 ⟨s, hs, rfl⟩)
  obtain ⟨l, hl, hnames⟩ := List.mem_map.1 hmem
  exact hnames ▸ h.ready.resolved.built.sound.plain l hl

theorem dotted_nodup (h : Converted c m) : (m.allSchemas.map (·.names.dotted)).Nodup := by
  refine List.Nodup.map_on (fun s hs s' hs' heq => ?_) h.names_nodup.of_map
  have hnames := (h.plain s hs).dotted_inj (h.plain s' hs') heq
  exact List.inj_on_of_nodup_map h.names_nodup hs hs' hnames

theorem findSchema? (h : Converted c m) {names : TypeNames} (hn : c.tree.Named names) :
    ∃ s ∈ m.allSchemas, s.names = names ∧ m.findSchema? names = some s := by
  obtain ⟨l, hl, rfl⟩ := hn
  have hmem := h.map_names.symm.subset (List.mem_map.2 ⟨l, hl, rfl⟩)
  obtain ⟨s, hs, hnames⟩ := List.mem_map.1 hmem
  cases hfind : m.findSchema? l.names with
  | none => exact absurd hnames (by simpa using List.find?_eq_none.1 hfind s hs)
  | some found =>
    have hfound := List.find?_some hfind
    rw [beq_iff_eq] at hfound
    exact ⟨found, List.mem_of_find?_eq_some hfind, hfound, rfl⟩

end Converted

namespace Document

variable {d : Document} {o : Options}

theorem describe_meets (hd : d.Rooted) (o : Options) :
    Meets (d.describe o) (fun x => d.placed o = .ok x.placed ∧ ∀ m, x.Gives d m →
      Converted { document := d, options := o, placed := x.placed } m)
        ConversionError.Expected := by
  unfold describe
  refine (placed_meets hd o).bind fun placed hplaced ⟨hfollow, hresolved⟩ => ?_
  have hready : Context.Ready { document := d, options := o, placed } := ⟨hd, hfollow, hresolved⟩
  refine hready.namedSchemas_meets.bind fun schemas _ ⟨order, hperm, hall⟩ => ?_
  refine hready.apis_meets.bind fun apis _ hapis => ⟨hplaced, fun m hgives => ?_⟩
  have hrenders : List.Forall₂ (Context.Renders { document := d, options := o, placed }) order
      m.allSchemas := by
    rw [SpecModel.allSchemas, hgives.schemas]
    exact hall
  refine ⟨hready, ⟨order, hperm, hrenders⟩, fun names hn => ?_, hgives.serialNames,
    hgives.interfaces⟩
  simp only [SpecModel.mentions, List.mem_append, List.mem_flatMap, hgives.apis,
    hgives.serialNames, hgives.interfaces] at hn
  rcases hn with ((⟨s, hs, hn⟩ | ⟨api, hapi, op, hop, hn⟩) | hn) | ⟨e, he, hn⟩
  · obtain ⟨index, _, hrenders⟩ := exists_of_mem_right hrenders hs
    exact hrenders.mentions names hn
  · exact hapis api hapi op hop names hn
  · obtain ⟨e, he, rfl⟩ := List.mem_map.1 hn
    exact hresolved.within.serialNames e he
  · obtain ⟨hkey, hvalues⟩ := hresolved.within.interfaces e he
    rcases List.mem_cons.1 hn with rfl | hn
    · exact hkey
    · exact hvalues names hn

theorem converted_of_convert {text : String} {l : Options} {complaints : List String}
    (hload : load text l = .ok (d, complaints)) {moment : Timestamp} {m : SpecModel}
    {notes : List Note} (hc : d.convert o moment = .ok (m, notes)) :
    ∃ placed, d.placed o = .ok placed ∧
      Converted { document := d, options := o, placed } m := by
  obtain ⟨x, hx, hgives⟩ := describe_of_convert hc
  obtain ⟨hplaced, hconverted⟩ := (describe_meets (rooted_of_load hload) o).of_ok hx
  exact ⟨x.placed, hplaced, hconverted m hgives⟩

theorem convert_mentions_closed {text : String} {l : Options} {complaints : List String}
    (hload : load text l = .ok (d, complaints)) {moment : Timestamp} {m : SpecModel}
    {notes : List Note} (hc : d.convert o moment = .ok (m, notes)) :
    ∀ names ∈ m.mentions, ∃ s ∈ m.allSchemas, s.names = names ∧
      m.findSchema? names = some s ∧ ∀ s' ∈ m.allSchemas, s'.names = names → s' = s := by
  intro names hn
  obtain ⟨placed, _, hconverted⟩ := converted_of_convert hload hc
  obtain ⟨s, hs, hnames, hfind⟩ := hconverted.findSchema? (hconverted.mentions names hn)
  refine ⟨s, hs, hnames, hfind, fun s' hs' hnames' => ?_⟩
  exact List.inj_on_of_nodup_map hconverted.names_nodup hs' hs (hnames'.trans hnames.symm)

theorem sample_converts : ∃ d m notes, load sample {} = .ok (d, []) ∧
    d.convert keepAll ⟨0, false⟩ = .ok (m, notes) ∧ TypeNames.root "A" ∈ m.mentions ∧
      m.allSchemas.length = 5 := by
  have hcheck : ((load sample {}).toOption.any fun x => x.2.isEmpty &&
      (x.1.convert keepAll ⟨0, false⟩).toOption.any fun y =>
        decide (TypeNames.root "A" ∈ y.1.mentions ∧ y.1.allSchemas.length = 5)) = true := by
    decide +kernel
  obtain ⟨d, hload, hconverted⟩ := quiet_of_any hcheck
  obtain ⟨⟨m, notes⟩, hc, hmodel⟩ := ok_of_any hconverted
  obtain ⟨hmention, hlength⟩ := of_decide_eq_true hmodel
  exact ⟨d, m, notes, hload, hc, hmention, hlength⟩

theorem convert_mentions_closed_sample : ∃ d m notes, load sample {} = .ok (d, []) ∧
    d.convert keepAll ⟨0, false⟩ = .ok (m, notes) ∧ TypeNames.root "A" ∈ m.mentions ∧
      ∃ s ∈ m.allSchemas, s.names = .root "A" ∧ m.findSchema? (.root "A") = some s ∧
        ∀ s' ∈ m.allSchemas, s'.names = .root "A" → s' = s := by
  obtain ⟨d, m, notes, hload, hc, hmention, _⟩ := sample_converts
  exact ⟨d, m, notes, hload, hc, hmention, convert_mentions_closed hload hc _ hmention⟩

theorem convert_renders_once {text : String} {l : Options} {complaints : List String}
    (hload : load text l = .ok (d, complaints)) {moment : Timestamp} {m : SpecModel}
    {notes : List Note} (hc : d.convert o moment = .ok (m, notes)) :
    (∃ placed, d.placed o = .ok placed ∧
      ∃ order : List Nat, order.Perm (List.range placed.tree.nodes.length) ∧
        List.Forall₂ (Context.Renders { document := d, options := o, placed }) order
          m.allSchemas) ∧
      (m.allSchemas.map NamedSchema.names).Nodup ∧ (m.allSchemas.map (·.names.dotted)).Nodup ∧
      (∃ j, m.toJson.get? "modelSerialNames" = some j ∧ j.Keeps m.serialNames .string) ∧
      ∃ j, m.toJson.get? "modelInterfaces" = some j ∧
        j.Keeps m.interfaces fun unions => .array (unions.map TypeNames.toJson) := by
  obtain ⟨placed, hplaced, hconverted⟩ := converted_of_convert hload hc
  have hwithin := hconverted.ready.resolved.within
  have hplain : ∀ names, placed.tree.Named names → names.Plain := by
    rintro names ⟨l, hl, rfl⟩
    exact hconverted.ready.resolved.built.sound.plain l hl
  refine ⟨⟨placed, hplaced, hconverted.order⟩, hconverted.names_nodup, hconverted.dotted_nodup,
    ⟨_, m.get?_serialNames, ?_⟩, ⟨_, m.get?_interfaces, ?_⟩⟩
  · rw [hconverted.serialNames]
    exact keeps_namedTable _ hwithin.serialNames_nodup
      fun e he => hplain _ (hwithin.serialNames e he)
  · rw [hconverted.interfaces]
    exact keeps_namedTable _ hwithin.interfaces_nodup
      fun e he => hplain _ (hwithin.interfaces e he).1

theorem convert_renders_once_sample : ∃ d m notes, load sample {} = .ok (d, []) ∧
    d.convert keepAll ⟨0, false⟩ = .ok (m, notes) ∧ m.allSchemas.length = 5 ∧
      (m.allSchemas.map (·.names.dotted)).Nodup := by
  obtain ⟨d, m, notes, hload, hc, _, hlength⟩ := sample_converts
  exact ⟨d, m, notes, hload, hc, hlength, (convert_renders_once hload hc).2.2.1⟩

end Document

end ApiModel
