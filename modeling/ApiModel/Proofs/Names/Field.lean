import ApiModel.Http
import ApiModel.Proofs.Names.Initial

namespace ApiModel

namespace Text

variable {sep : Char}

theorem alphanumericPieces_separator (hsep : isAlphanumeric sep = false) (rest : List Char) :
    alphanumericPieces (sep :: rest) = alphanumericPieces rest := by
  cases rest <;> simp [alphanumericPieces, hsep]

theorem alphanumericPieces_cons_separator {c : Char} (hc : isAlphanumeric c = true)
    (hsep : isAlphanumeric sep = false) (rest : List Char) :
    alphanumericPieces (c :: sep :: rest) = [c] :: alphanumericPieces rest := by
  rw [alphanumericPieces.eq_def]
  simp only [hc, if_true, alphanumericPieces_separator hsep]
  cases alphanumericPieces rest <;> simp [hsep]

theorem alphanumericPieces_cons_cons {c d : Char} (hc : isAlphanumeric c = true)
    (hd : isAlphanumeric d = true) (rest : List Char) :
    ∃ piece pieces, alphanumericPieces (d :: rest) = piece :: pieces ∧
      alphanumericPieces (c :: d :: rest) = (c :: piece) :: pieces := by
  have hne : alphanumericPieces (d :: rest) ≠ [] := by
    intro hnil
    have hkept := flatten_pieces (d :: rest)
    simp [hnil, hd] at hkept
  obtain ⟨piece, pieces, hpieces⟩ := List.exists_cons_of_ne_nil hne
  refine ⟨piece, pieces, hpieces, ?_⟩
  rw [alphanumericPieces.eq_def]
  simp only [hc, hd, if_true, hpieces]

theorem alphanumericPieces_append_cons (hsep : isAlphanumeric sep = false) (s t : List Char) :
    alphanumericPieces (s ++ sep :: t) = alphanumericPieces s ++ alphanumericPieces t := by
  induction s with
  | nil => exact alphanumericPieces_separator hsep t
  | cons c s ih =>
    cases hc : isAlphanumeric c with
    | false =>
      rw [List.cons_append, alphanumericPieces_separator hc, ih, alphanumericPieces_separator hc]
    | true =>
      cases s with
      | nil =>
        have hone : alphanumericPieces [c] = [[c]] := by simp [alphanumericPieces, hc]
        simpa [hone] using alphanumericPieces_cons_separator hc hsep t
      | cons d s =>
        simp only [List.cons_append] at ih ⊢
        cases hd : isAlphanumeric d with
        | false =>
          rw [alphanumericPieces_cons_separator hc hd, alphanumericPieces_cons_separator hc hd,
            ← alphanumericPieces_separator hd, ih, alphanumericPieces_separator hd,
            List.cons_append]
        | true =>
          obtain ⟨piece, pieces, hshort, hlong⟩ := alphanumericPieces_cons_cons hc hd s
          obtain ⟨piece', pieces', hshort', hlong'⟩ :=
            alphanumericPieces_cons_cons hc hd (s ++ sep :: t)
          rw [ih, hshort, List.cons_append, List.cons.injEq] at hshort'
          obtain ⟨rfl, rfl⟩ := hshort'
          rw [hlong', hlong, List.cons_append]

theorem words_append_cons (hsep : isAlphanumeric sep = false) (s t : List Char) :
    words (s ++ sep :: t) = words s ++ words t := by
  rw [words, alphanumericPieces_append_cons hsep, List.flatMap_append]
  rfl

theorem length_lowerForm_le (c : Char) : (lowerForm c).length ≤ 2 := by
  have htable : ∀ entry ∈ lowerExpansions, entry.2.length ≤ 2 := by decide +kernel
  unfold lowerForm
  split
  · next codes hcodes =>
    obtain ⟨before, after, hsplit, _⟩ := List.lookup_eq_some_iff.1 hcodes
    simpa using htable (c.toNat, codes) (by simp [hsplit])
  · simp

theorem length_lowerWord_le (w : List Char) :
    (lowerWord w).length ≤ (capitalWord w).length + 1 := by
  cases w with
  | nil => simp [lowerWord]
  | cons c rest =>
    have hlower := length_lowerForm_le c
    have hupper := List.length_pos_iff.2 (upperForm_ne_nil c)
    cases rest with
    | nil =>
      simp only [lowerWord, capitalWord, List.length_append]
      split
      · simp
      · omega
    | cons d rest =>
      simp only [lowerWord, capitalWord, List.length_append]
      omega

theorem length_lowerCamel_le (s : List Char) :
    (lowerCamel s).length ≤ (upperCamel s).length + 1 := by
  unfold lowerCamel upperCamel
  cases words s with
  | nil => simp
  | cons first rest =>
    have hfirst := length_lowerWord_le first
    simp only [List.flatMap_cons, List.length_append]
    omega

end Text

namespace ParameterLocation

def label (l : ParameterLocation) : List Char := Text.lowerWord l.name.toList

theorem four_le_length_label (l : ParameterLocation) : 4 ≤ l.label.length := by
  cases l <;> decide +kernel

theorem label_append_inj {l l' : ParameterLocation} {s t : List Char}
    (h : l.label ++ s = l'.label ++ t) : l = l' ∧ s = t := by
  have hheads : ∀ l l' : ParameterLocation, l.label.head? = l'.label.head? → l = l' := by
    intro l l'
    cases l <;> cases l' <;> decide +kernel
  have hne (l : ParameterLocation) : l.label ≠ [] :=
    List.ne_nil_of_length_pos (by have := l.four_le_length_label; omega)
  have hhead := congrArg List.head? h
  rw [List.head?_append_of_ne_nil _ (hne l), List.head?_append_of_ne_nil _ (hne l')] at hhead
  obtain rfl := hheads l l' hhead
  exact ⟨rfl, List.append_cancel_left h⟩

end ParameterLocation

namespace Naming

open Text (upperCamel lowerCamel)

theorem toList_fieldName (raw : String) :
    (fieldName raw).toList = guardDigit (lowerCamel raw.toList) := String.toList_ofList

theorem length_guardDigit_le (s : List Char) : (guardDigit s).length ≤ s.length + 1 := by
  cases s with
  | nil => simp [guardDigit]
  | cons c rest =>
    rw [guardDigit]
    split <;> simp

theorem toList_fieldName_located (l : ParameterLocation) (raw : String) :
    (fieldName (l.name ++ "." ++ raw)).toList = l.label ++ upperCamel raw.toList := by
  have hword : Text.words l.name.toList = [l.name.toList] := by cases l <;> decide +kernel
  have hguard (s : List Char) : guardDigit (l.label ++ s) = l.label ++ s := by
    cases l <;> rfl
  have hchars : (l.name ++ "." ++ raw).toList = l.name.toList ++ '.' :: raw.toList := by
    simp [String.toList_append]
  rw [toList_fieldName, lowerCamel, hchars, Text.words_append_cons (by decide +kernel), hword]
  exact hguard _

theorem fieldName_located_ne (l : ParameterLocation) (raw : String) :
    fieldName (l.name ++ "." ++ raw) ≠ fieldName raw := by
  intro h
  have hlength := congrArg (fun name : String => name.toList.length) h
  simp only [toList_fieldName_located, toList_fieldName raw, List.length_append] at hlength
  have hlabel := l.four_le_length_label
  have hguard := length_guardDigit_le (lowerCamel raw.toList)
  have hcamel := Text.length_lowerCamel_le raw.toList
  omega

theorem fieldName_located_inj {l l' : ParameterLocation} {raw raw' : String} :
    fieldName (l.name ++ "." ++ raw) = fieldName (l'.name ++ "." ++ raw') ↔
      l = l' ∧ upperCamel raw.toList = upperCamel raw'.toList := by
  rw [← String.toList_inj, toList_fieldName_located, toList_fieldName_located]
  constructor
  · exact ParameterLocation.label_append_inj
  · rintro ⟨rfl, hcamel⟩
    rw [hcamel]

end Naming

end ApiModel
