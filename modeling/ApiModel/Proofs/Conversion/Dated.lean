import ApiModel.Conversion
import ApiModel.Proofs.Outcome

namespace ApiModel

namespace FileHeader

variable {info : Info} {title version : String} {moment : Timestamp}

theorem generate_dated (h : moment.HasMailDate) :
    generate info title version moment = .ok (render info title version moment) := if_pos h

theorem generate_undated (h : ¬moment.HasMailDate) :
    generate info title version moment = .error (.broken (.unwritableYear moment.clock.year)) :=
  if_neg h

end FileHeader

/-- What a model takes over from a description; only its header and its metadata know the moment. -/
structure Description.Gives (x : Description) (d : Document) (m : SpecModel) : Prop where
  schemas : m.schemas = x.schemas
  apis : m.apis = x.apis
  securitySchemes : m.securitySchemes = d.supportedSchemes
  serialNames : m.serialNames = x.placed.unions.serialNames
  interfaces : m.interfaces = x.placed.unions.interfaces

namespace Document

variable {d : Document} {o : Options} {moment : Timestamp} {x : Description} {e : ConversionError}

theorem exists_convert (hx : d.describe o = .ok x) (h : moment.HasMailDate) :
    ∃ y, d.convert o moment = .ok y := by
  unfold convert
  rw [hx]
  simp only [bind, Except.bind]
  rw [FileHeader.generate_dated ((Timestamp.hasMailDate_truncate moment).2 h)]
  exact ⟨_, rfl⟩

theorem convert_undated (hx : d.describe o = .ok x) (h : ¬moment.HasMailDate) :
    d.convert o moment = .error (.broken (.unwritableYear moment.clock.year)) := by
  unfold convert
  rw [hx]
  simp only [bind, Except.bind]
  rw [FileHeader.generate_undated (mt (Timestamp.hasMailDate_truncate moment).1 h)]
  rfl

theorem convert_of_describe_error (he : d.describe o = .error e) :
    d.convert o moment = .error e := by
  unfold convert
  rw [he]
  rfl

theorem describe_of_convert {m : SpecModel} {notes : List Note}
    (hc : d.convert o moment = .ok (m, notes)) :
    ∃ x, d.describe o = .ok x ∧ x.Gives d m := by
  unfold convert at hc
  obtain ⟨x, hx, hc⟩ := ok_of_bind hc
  obtain ⟨header, -, hc⟩ := ok_of_bind hc
  cases hc
  exact ⟨x, hx, rfl, rfl, rfl, rfl, rfl⟩

theorem exists_convert_iff :
    (∃ y, d.convert o moment = .ok y) ↔ (∃ x, d.describe o = .ok x) ∧ moment.HasMailDate := by
  constructor
  · rintro ⟨⟨m, notes⟩, hy⟩
    obtain ⟨x, hx, -⟩ := describe_of_convert hy
    refine ⟨⟨x, hx⟩, ?_⟩
    by_contra h
    cases (convert_undated hx h).symm.trans hy
  · rintro ⟨⟨x, hx⟩, h⟩
    exact exists_convert hx h

theorem convert_error_iff : d.convert o moment = .error e ↔ d.describe o = .error e ∨
    (∃ x, d.describe o = .ok x) ∧ ¬moment.HasMailDate ∧
      e = .broken (.unwritableYear moment.clock.year) := by
  cases hx : d.describe o with
  | error e' =>
    rw [convert_of_describe_error hx]
    simp
  | ok x =>
    by_cases h : moment.HasMailDate
    · obtain ⟨y, hy⟩ := exists_convert hx h
      simp [hy, h]
    · simp [convert_undated hx h, h, eq_comm]

theorem describe_ok_iff : d.describe o = .ok x ↔ d.placed o = .ok x.placed ∧
    Context.namedSchemas { document := d, options := o, placed := x.placed } = .ok x.schemas ∧
      Context.apis { document := d, options := o, placed := x.placed } = .ok x.apis := by
  constructor
  · intro h
    unfold describe at h
    obtain ⟨placed, hplaced, h⟩ := ok_of_bind h
    obtain ⟨schemas, hschemas, h⟩ := ok_of_bind h
    obtain ⟨apis, hapis, h⟩ := ok_of_bind h
    cases h
    exact ⟨hplaced, hschemas, hapis⟩
  · rintro ⟨hplaced, hschemas, hapis⟩
    simp only [describe, hplaced, hschemas, hapis, bind, Except.bind]
    rfl

theorem apis_of_convert {m : SpecModel} {notes : List Note}
    (hc : d.convert o moment = .ok (m, notes)) : ∃ placed, d.placed o = .ok placed ∧
      Context.apis { document := d, options := o, placed } = .ok m.apis := by
  obtain ⟨x, hx, hgives⟩ := describe_of_convert hc
  obtain ⟨hplaced, -, hapis⟩ := describe_ok_iff.1 hx
  exact ⟨x.placed, hplaced, hgives.apis ▸ hapis⟩

end Document

end ApiModel
