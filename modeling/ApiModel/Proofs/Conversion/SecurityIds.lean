import ApiModel.Proofs.Conversion.Grouping
import ApiModel.Proofs.Document.Keyed
import ApiModel.Proofs.Model.Security
import ApiModel.Proofs.Names.Marks

namespace ApiModel

def WrittenAlike (a b : String) : Prop := Text.upperCamel a.toList = Text.upperCamel b.toList

theorem nodup_map_typeName {names : List String} :
    (names.map Naming.typeName).Nodup ↔ names.Pairwise fun a b => ¬WrittenAlike a b := by
  rw [List.Nodup, List.pairwise_map]
  simp only [ne_eq, Naming.typeName_inj, WrittenAlike]

theorem SecurityScheme.ofObject?_eq_some {rawName : String} {s : SecuritySchemeObject}
    {scheme : SecurityScheme} (h : ofObject? rawName s = some scheme) :
    scheme.rawName = rawName ∧ scheme.name = Naming.typeName rawName := by
  obtain ⟨type, -, rfl⟩ := Option.map_eq_some_iff.1 h
  exact ⟨rfl, rfl⟩

namespace Document

variable {d : Document} {o o' : Options} {moment : Timestamp} {m : SpecModel} {notes : List Note}

theorem rawNames_sublist (schemes : OrderedMap String SecuritySchemeObject) :
    ((schemes.filterMap fun e => SecurityScheme.ofObject? e.1 e.2).map (·.rawName)).Sublist
      schemes.keys := by
  induction schemes with
  | nil => exact .slnil
  | cons e schemes ih =>
    cases hscheme : SecurityScheme.ofObject? e.1 e.2 with
    | none =>
      simp only [List.filterMap_cons, hscheme]
      exact ih.cons e.1
    | some scheme =>
      simp only [List.filterMap_cons, hscheme, List.map_cons,
        (SecurityScheme.ofObject?_eq_some hscheme).1]
      exact ih.cons_cons e.1

theorem name_of_mem {s : SecurityScheme} (h : s ∈ d.supportedSchemes) :
    s.name = Naming.typeName s.rawName := by
  obtain ⟨e, -, hscheme⟩ := List.mem_filterMap.1 h
  obtain ⟨hraw, hname⟩ := SecurityScheme.ofObject?_eq_some hscheme
  rw [hname, hraw]

theorem names_supportedSchemes (d : Document) : d.supportedSchemes.map (·.name) =
    (d.supportedSchemes.map (·.rawName)).map Naming.typeName := by
  rw [List.map_map]
  exact List.map_congr_left fun s hs => name_of_mem hs

end Document

theorem Context.securityIds_of_operation {c : Context} {item : PathItem} {op : Operation}
    {s : SpecOperation} (h : c.operation item op = .ok s) :
    c.document.securityIds item.path op = .ok s.securityIds := by
  unfold Context.operation at h
  obtain ⟨parameters, -, h⟩ := ok_of_bind h
  obtain ⟨body, -, h⟩ := ok_of_bind h
  obtain ⟨response, -, h⟩ := ok_of_bind h
  obtain ⟨ids, hids, h⟩ := ok_of_bind h
  cases h
  exact hids

namespace Document

variable {d : Document} {o o' : Options} {moment : Timestamp} {m : SpecModel} {notes : List Note}

theorem securityIds_of_convert (hc : d.convert o moment = .ok (m, notes)) :
    m.securitySchemes = d.supportedSchemes ∧ ∀ api ∈ m.apis, ∀ op ∈ api.operations,
      ∃ entry ∈ d.selected o, d.securityIds entry.1.path entry.2 = .ok op.securityIds := by
  obtain ⟨_, _, hgives⟩ := describe_of_convert hc
  obtain ⟨placed, _, hapis⟩ := apis_of_convert hc
  refine ⟨hgives.securitySchemes, fun api hapi op hop => ?_⟩
  obtain ⟨listing, hall, hgrouped⟩ := (Context.apis_grouped _).of_ok hapis
  rw [hgrouped.listed api hapi] at hop
  obtain ⟨e, he, hcopies⟩ := List.mem_flatMap.1 hop
  obtain ⟨entry, hentry, -, hdescribed⟩ := exists_of_mem_right hall he
  rw [List.eq_of_mem_replicate hcopies]
  exact ⟨entry, hentry, Context.securityIds_of_operation hdescribed⟩

theorem existsUnique_named (hnodup : (d.supportedSchemes.map (·.rawName)).Nodup)
    {s : SecurityScheme} (hs : s ∈ d.supportedSchemes) :
    (∃! found, found ∈ d.supportedSchemes ∧ found.name = s.name) ↔
      ∀ other ∈ d.supportedSchemes, WrittenAlike other.rawName s.rawName →
        other.rawName = s.rawName := by
  have halike {other : SecurityScheme} (hother : other ∈ d.supportedSchemes) :
      other.name = s.name ↔ WrittenAlike other.rawName s.rawName := by
    rw [name_of_mem hother, name_of_mem hs]
    exact Naming.typeName_inj
  constructor
  · rintro ⟨found, -, hunique⟩ other hother hsame
    have hs' := hunique s ⟨hs, rfl⟩
    rw [hunique other ⟨hother, (halike hother).2 hsame⟩, hs']
  · intro h
    refine ⟨s, ⟨hs, rfl⟩, fun other ⟨hother, hname⟩ => ?_⟩
    exact List.inj_on_of_nodup_map hnodup hother hs (h other hother ((halike hother).1 hname))

theorem convert_securityIds {text : String} {complaints : List String}
    (hload : load text o = .ok (d, complaints)) (hc : d.convert o' moment = .ok (m, notes)) :
    (m.securitySchemes.map (·.rawName)).Nodup ∧
    ((m.securitySchemes.map (·.name)).Nodup ↔
      (m.securitySchemes.map (·.rawName)).Pairwise fun a b => ¬WrittenAlike a b) ∧
    ∀ api ∈ m.apis, ∀ op ∈ api.operations, ∃ entry ∈ d.selected o', ∃ names,
      FirstOccurrences ((d.effectiveRequirements entry.2).flatMap OrderedMap.keys) names ∧
      op.securityIds = names.map Naming.typeName ∧
      (op.securityIds.Nodup ↔ names.Pairwise fun a b => ¬WrittenAlike a b) ∧
      ∀ name ∈ names, ∃ s ∈ m.securitySchemes, s.rawName = name ∧
        s.name = Naming.typeName name ∧
        ((∃! found, found ∈ m.securitySchemes ∧ found.name = s.name) ↔
          ∀ other ∈ m.securitySchemes, WrittenAlike other.rawName name → other.rawName = name) := by
  obtain ⟨htable, hops⟩ := securityIds_of_convert hc
  have hnodup : (d.supportedSchemes.map (·.rawName)).Nodup :=
    (keyed_of_load hload).securitySchemes.sublist (rawNames_sublist d.securitySchemes)
  rw [htable]
  refine ⟨hnodup, ?_, fun api hapi op hop => ?_⟩
  · rw [names_supportedSchemes]
    exact nodup_map_typeName
  · obtain ⟨entry, hentry, hids⟩ := hops api hapi op hop
    obtain ⟨hall, hnames⟩ := securityIds_ok_iff.1 hids
    rw [hnames]
    refine ⟨entry, hentry, _, requiredSchemes_firstOccurrences d entry.2, rfl,
      nodup_map_typeName, fun name hname => ?_⟩
    obtain ⟨s, hs, rfl, hid⟩ := (hall name hname).exists_scheme
    exact ⟨s, hs, rfl, hid, existsUnique_named hnodup hs⟩

def doublet : String :=
  "\x7bopenapi: '3.1', info: \x7b\x7d, paths: \x7b/p: \x7bget: " ++
    "\x7btags: [t], security: [\x7bapi_key: []\x7d, \x7bapi-key: []\x7d]\x7d\x7d\x7d, " ++
    "components: \x7bsecuritySchemes: \x7bapi_key: \x7btype: apiKey, in: header\x7d, " ++
    "api-key: \x7btype: apiKey, in: query\x7d\x7d\x7d\x7d"

theorem doublet_converts : ∃ d m notes, load doublet {} = .ok (d, []) ∧
    d.convert {} ⟨0, false⟩ = .ok (m, notes) ∧
      m.securitySchemes.map (·.name) = ["ApiKey", "ApiKey"] ∧
      ∃ api ∈ m.apis, ∃ op ∈ api.operations, op.securityIds = ["ApiKey", "ApiKey"] := by
  have hcheck : ((load doublet {}).toOption.any fun x => x.2.isEmpty &&
      (x.1.convert {} ⟨0, false⟩).toOption.any fun y =>
        decide (y.1.securitySchemes.map (·.name) = ["ApiKey", "ApiKey"]) &&
        y.1.apis.any fun api => api.operations.any fun op =>
          op.securityIds == ["ApiKey", "ApiKey"]) = true := by
    decide +kernel
  obtain ⟨d, hload, hconverted⟩ := quiet_of_any hcheck
  obtain ⟨⟨m, notes⟩, hc, hmodel⟩ := ok_of_any hconverted
  obtain ⟨hnames, hlisted⟩ := Bool.and_eq_true_iff.1 hmodel
  obtain ⟨api, hapi, hlisted⟩ := List.any_eq_true.1 hlisted
  obtain ⟨op, hop, hids⟩ := List.any_eq_true.1 hlisted
  exact ⟨d, m, notes, hload, hc, of_decide_eq_true hnames, api, hapi, op, hop, beq_iff_eq.1 hids⟩

theorem convert_securityIds_doublet : ∃ d m notes, load doublet {} = .ok (d, []) ∧
    d.convert {} ⟨0, false⟩ = .ok (m, notes) ∧
      (m.securitySchemes.map (·.rawName)).Nodup ∧
      ((m.securitySchemes.map (·.name)).Nodup ↔
        (m.securitySchemes.map (·.rawName)).Pairwise fun a b => ¬WrittenAlike a b) ∧
      ∃ api ∈ m.apis, ∃ op ∈ api.operations, op.securityIds = ["ApiKey", "ApiKey"] ∧
        ∃ entry ∈ d.selected {}, ∃ names,
          FirstOccurrences ((d.effectiveRequirements entry.2).flatMap OrderedMap.keys) names ∧
          op.securityIds = names.map Naming.typeName ∧
          (op.securityIds.Nodup ↔ names.Pairwise fun a b => ¬WrittenAlike a b) ∧
          ∀ name ∈ names, ∃ s ∈ m.securitySchemes, s.rawName = name ∧
            s.name = Naming.typeName name ∧
            ((∃! found, found ∈ m.securitySchemes ∧ found.name = s.name) ↔
              ∀ other ∈ m.securitySchemes,
                WrittenAlike other.rawName name → other.rawName = name) := by
  obtain ⟨d, m, notes, hload, hc, -, api, hapi, op, hop, hids⟩ := doublet_converts
  obtain ⟨hdeclared, hnames, hops⟩ := convert_securityIds hload hc
  exact ⟨d, m, notes, hload, hc, hdeclared, hnames, api, hapi, op, hop, hids, hops api hapi op hop⟩

theorem doublet_meets : ∃ d m notes, load doublet {} = .ok (d, []) ∧
    d.convert {} ⟨0, false⟩ = .ok (m, notes) ∧ ¬(m.securitySchemes.map (·.name)).Nodup ∧
      ∃ api ∈ m.apis, ∃ op ∈ api.operations, ¬op.securityIds.Nodup := by
  obtain ⟨d, m, notes, hload, hc, hnames, api, hapi, op, hop, hids⟩ := doublet_converts
  refine ⟨d, m, notes, hload, hc, by rw [hnames]; decide, api, hapi, op, hop, ?_⟩
  rw [hids]
  decide

end Document

end ApiModel
