import ApiModel.Naming
import Mathlib.Data.List.Basic

namespace ApiModel

namespace Text

/-- A character that stands in no word and that no change of case ends in. -/
structure Mark (mark : Char) : Prop where
  visible : mark.toNat ≠ 0
  separates : isAlphanumeric mark = false
  shifts : ∀ s ∈ upperShifts ++ lowerShifts, (mark.toNat : Int) < s.run.first + s.distance ∨
    s.run.last + s.distance < (mark.toNat : Int)
  expansions : ∀ entry ∈ upperExpansions ++ lowerExpansions, mark.toNat ∉ entry.2

theorem mark_dot : Mark '.' :=
  ⟨by decide, by decide, by decide +kernel, by decide +kernel⟩

theorem mark_underscore : Mark '_' :=
  ⟨by decide, by decide, by decide +kernel, by decide +kernel⟩

theorem alphanumeric_of_mem_pieces {s piece : List Char} (h : piece ∈ alphanumericPieces s) :
    ∀ c ∈ piece, isAlphanumeric c = true := by
  induction s generalizing piece with
  | nil => cases h
  | cons c rest ih =>
    unfold alphanumericPieces at h
    split at h
    · next hc =>
      split at h
      · next d tail first pieces hpieces =>
        rw [hpieces] at ih
        split at h
        · rcases List.mem_cons.1 h with rfl | h
          · exact List.forall_mem_cons.2 ⟨hc, ih List.mem_cons_self⟩
          · exact ih (List.mem_cons_of_mem _ h)
        · rcases List.mem_cons.1 h with rfl | h
          · exact List.forall_mem_cons.2 ⟨hc, by simp⟩
          · exact ih h
      · rcases List.mem_cons.1 h with rfl | h
        · exact List.forall_mem_cons.2 ⟨hc, by simp⟩
        · exact ih h
    · exact ih h

theorem mem_of_mem_wordsFrom {mode : Letter} {word s w : List Char} (h : w ∈ wordsFrom mode word s)
    {c : Char} (hc : c ∈ w) : c ∈ word ∨ c ∈ s := by
  fun_induction wordsFrom mode word s generalizing w with
  | case1 => cases h
  | case2 mode word hword =>
    rw [List.mem_singleton] at h
    subst h
    exact .inl (List.mem_reverse.1 hc)
  | case3 mode word d =>
    rw [List.mem_singleton] at h
    subst h
    rcases List.mem_cons.1 (List.mem_reverse.1 hc) with rfl | hc
    · exact .inr List.mem_cons_self
    · exact .inl hc
  | case4 mode word d next rest turned hturn =>
    rename_i ih
    rcases List.mem_cons.1 h with rfl | h
    · rcases List.mem_cons.1 (List.mem_reverse.1 hc) with rfl | hc
      · exact .inr List.mem_cons_self
      · exact .inl hc
    · exact .inr (List.mem_cons_of_mem _ ((ih h hc).resolve_left (by simp)))
  | case5 mode word d next rest turned hturn hrun =>
    rename_i ih
    rcases List.mem_cons.1 h with rfl | h
    · exact .inl (List.mem_reverse.1 hc)
    · rcases ih h hc with hd | hrest
      · rw [List.mem_singleton] at hd
        exact .inr (hd ▸ List.mem_cons_self)
      · exact .inr (List.mem_cons_of_mem _ hrest)
  | case6 mode word d next rest turned hturn hrun =>
    rename_i ih
    rcases ih h hc with hd | hrest
    · rcases List.mem_cons.1 hd with rfl | hd
      · exact .inr List.mem_cons_self
      · exact .inl hd
    · exact .inr (List.mem_cons_of_mem _ hrest)

namespace Mark

variable {mark c : Char} {code : Nat} (h : Mark mark)

include h

theorem ofNat_ne (hcode : code ≠ mark.toNat) : Char.ofNat code ≠ mark := by
  intro hc
  by_cases hvalid : code.isValidChar
  · rw [Char.ofNat, dif_pos hvalid] at hc
    exact hcode (congrArg Char.toNat hc)
  · rw [Char.ofNat, dif_neg hvalid] at hc
    exact h.visible (congrArg Char.toNat hc.symm)

theorem not_mem_ofNat {codes : List Nat} (hcodes : mark.toNat ∉ codes) :
    mark ∉ codes.map Char.ofNat := by
  intro hmem
  obtain ⟨code, hcode, heq⟩ := List.mem_map.1 hmem
  exact h.ofNat_ne (fun hm => hcodes (hm ▸ hcode)) heq

theorem apply_ne {shifts : List Shift} (hshifts : shifts ⊆ upperShifts ++ lowerShifts)
    (hcode : code ≠ mark.toNat) : Shift.apply shifts code ≠ mark.toNat := by
  induction shifts with
  | nil => exact hcode
  | cons s rest ih =>
    obtain ⟨hs, hrest⟩ := List.cons_subset.1 hshifts
    have hbounds := h.shifts s hs
    have hvisible := h.visible
    unfold Shift.apply
    split
    · exact hcode
    · split
      · next hrun =>
        rw [Run.contains, Bool.and_eq_true, Bool.and_eq_true, decide_eq_true_eq,
          decide_eq_true_eq] at hrun
        omega
      · exact ih hrest

theorem not_mem_form {table : List (Nat × List Nat)} {shifts : List Shift}
    (htable : table ⊆ upperExpansions ++ lowerExpansions)
    (hshifts : shifts ⊆ upperShifts ++ lowerShifts) (hc : c ≠ mark) :
    mark ∉ match table.lookup c.toNat with
      | some codes => codes.map Char.ofNat
      | none => [Char.ofNat (Shift.apply shifts c.toNat)] := by
  split
  · next codes hcodes =>
    obtain ⟨before, after, hsplit, _⟩ := List.lookup_eq_some_iff.1 hcodes
    exact h.not_mem_ofNat (h.expansions (c.toNat, codes) (htable (by simp [hsplit])))
  · rw [List.mem_singleton]
    exact (h.ofNat_ne (h.apply_ne hshifts fun hm => hc (Char.toNat_inj.1 hm))).symm

theorem not_mem_upperForm (hc : c ≠ mark) : mark ∉ upperForm c :=
  h.not_mem_form (List.subset_append_left _ _) (List.subset_append_left _ _) hc

theorem not_mem_lowerForm (hc : c ≠ mark) : mark ∉ lowerForm c :=
  h.not_mem_form (List.subset_append_right _ _) (List.subset_append_right _ _) hc

theorem not_mem_lowerWord {s : List Char} (hs : mark ∉ s) : mark ∉ lowerWord s := by
  fun_induction lowerWord s with
  | case1 => exact hs
  | case2 =>
    intro hmem
    obtain rfl := List.mem_singleton.1 hmem
    exact absurd h.separates (by decide)
  | case3 c _ => exact h.not_mem_lowerForm fun hc => hs (hc ▸ List.mem_cons_self)
  | case4 c rest _ ih =>
    rw [List.mem_append, not_or]
    exact ⟨h.not_mem_lowerForm fun hc => hs (hc ▸ List.mem_cons_self),
      ih fun hr => hs (List.mem_cons_of_mem _ hr)⟩

theorem not_mem_capitalWord {s : List Char} (hs : mark ∉ s) : mark ∉ capitalWord s := by
  cases s with
  | nil => exact hs
  | cons c rest =>
    rw [capitalWord, List.mem_append, not_or]
    exact ⟨h.not_mem_upperForm fun hc => hs (hc ▸ List.mem_cons_self),
      h.not_mem_lowerWord fun hr => hs (List.mem_cons_of_mem _ hr)⟩

theorem not_mem_word {s w : List Char} (hw : w ∈ words s) : mark ∉ w := by
  intro hmark
  obtain ⟨piece, hpiece, hmem⟩ := List.mem_flatMap.1 hw
  have hin := (mem_of_mem_wordsFrom hmem hmark).resolve_left (by simp)
  have halnum := alphanumeric_of_mem_pieces hpiece mark hin
  rw [h.separates] at halnum
  cases halnum

theorem not_mem_upperCamel (s : List Char) : mark ∉ upperCamel s := by
  intro hmark
  obtain ⟨w, hw, hmem⟩ := List.mem_flatMap.1 hmark
  exact h.not_mem_capitalWord (h.not_mem_word hw) hmem

end Mark

end Text

namespace Naming

open Text (upperCamel)

theorem guardDigit_cases (s : List Char) : guardDigit s = s ∨ guardDigit s = '_' :: s := by
  cases s with
  | nil => exact .inl rfl
  | cons c rest =>
    rw [guardDigit]
    split
    · exact .inr rfl
    · exact .inl rfl

theorem guardDigit_inj {s t : List Char} (hs : '_' ∉ s) (ht : '_' ∉ t)
    (h : guardDigit s = guardDigit t) : s = t := by
  rcases guardDigit_cases s with hs' | hs' <;> rcases guardDigit_cases t with ht' | ht' <;>
    rw [hs', ht'] at h
  · exact h
  · exact (hs (h ▸ List.mem_cons_self)).elim
  · exact (ht (h ▸ List.mem_cons_self)).elim
  · exact (List.cons.inj h).2

theorem typeName_inj {raw raw' : String} :
    typeName raw = typeName raw' ↔ upperCamel raw.toList = upperCamel raw'.toList := by
  have hmark := Text.mark_underscore
  refine ⟨fun h => ?_, fun h => by rw [typeName, h, typeName]⟩
  refine guardDigit_inj (hmark.not_mem_upperCamel _) (hmark.not_mem_upperCamel _) ?_
  exact String.ofList_injective h

end Naming

end ApiModel
