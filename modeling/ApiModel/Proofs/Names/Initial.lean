import ApiModel.Naming
import Mathlib.Data.List.Basic

namespace ApiModel

namespace Text

theorem flatten_pieces (s : List Char) :
    (alphanumericPieces s).flatten = s.filter isAlphanumeric := by
  induction s with
  | nil => rfl
  | cons c rest ih =>
    unfold alphanumericPieces
    split
    · next hc =>
      rw [List.filter_cons_of_pos hc, ← ih]
      split
      · next hpieces =>
        rw [hpieces]
        split <;> rfl
      · rfl
    · next hc => rw [List.filter_cons_of_neg hc, ih]

theorem flatten_wordsFrom (mode : Letter) (word s : List Char) :
    (wordsFrom mode word s).flatten = word.reverse ++ s := by
  fun_induction wordsFrom mode word s with
  | case1 mode word hword => simp_all
  | case2 mode word hword => simp
  | case3 mode word c => simp
  | case4 mode word c next rest turned hturn ih => simp [ih]
  | case5 mode word c next rest turned hturn hrun ih => simp [ih]
  | case6 mode word c next rest turned hturn hrun ih => simp [ih]

theorem ne_nil_of_mem_wordsFrom {mode : Letter} {word s w : List Char}
    (hmode : mode = .capital → word ≠ []) (h : w ∈ wordsFrom mode word s) : w ≠ [] := by
  fun_induction wordsFrom mode word s with
  | case1 mode word hword => cases h
  | case2 mode word hword =>
    rw [List.mem_singleton.1 h]
    simpa using hword
  | case3 mode word c =>
    rw [List.mem_singleton.1 h]
    simp
  | case4 mode word c next rest turned hturn ih =>
    rcases List.mem_cons.1 h with rfl | h
    · simp
    · exact ih (by simp) h
  | case5 mode word c next rest turned hturn hrun ih =>
    rcases List.mem_cons.1 h with rfl | h
    · simpa using hmode hrun.1
    · exact ih (by simp) h
  | case6 mode word c next rest turned hturn hrun ih => exact ih (by simp) h

theorem flatten_words (s : List Char) : (words s).flatten = s.filter isAlphanumeric := by
  rw [words, ← flatten_pieces]
  induction alphanumericPieces s with
  | nil => rfl
  | cons piece pieces ih =>
    rw [List.flatMap_cons, List.flatten_append, flatten_wordsFrom, ih]
    rfl

theorem ne_nil_of_mem_words {s w : List Char} (h : w ∈ words s) : w ≠ [] := by
  obtain ⟨piece, _, hw⟩ := List.mem_flatMap.1 h
  exact ne_nil_of_mem_wordsFrom (by simp) hw

theorem upperForm_ne_nil (c : Char) : upperForm c ≠ [] := by
  have htable : ∀ entry ∈ upperExpansions, entry.2 ≠ [] := by decide +kernel
  unfold upperForm
  split
  · next codes hcodes =>
    obtain ⟨before, after, hsplit, _⟩ := List.lookup_eq_some_iff.1 hcodes
    simpa using htable (c.toNat, codes) (by simp [hsplit])
  · simp

theorem head?_flatMap_capitalWord {ws : List (List Char)} (h : ∀ w ∈ ws, w ≠ []) :
    (ws.flatMap capitalWord).head? = ws.flatten.head?.bind fun c => (upperForm c).head? := by
  cases ws with
  | nil => rfl
  | cons w ws =>
    cases w with
    | nil => exact absurd rfl (h [] List.mem_cons_self)
    | cons c rest =>
      rw [List.flatMap_cons, capitalWord, List.append_assoc,
        List.head?_append_of_ne_nil _ (upperForm_ne_nil c)]
      rfl

end Text

namespace Naming

open Text (isAsciiDigit isAlphanumeric upperCamel upperForm)

def initial? (raw : String) : Option Char :=
  ((raw.toList.find? isAlphanumeric).bind fun c => (upperForm c).head?).map fun c =>
    if isAsciiDigit c then '_' else c

theorem head?_typeName (raw : String) : (typeName raw).toList.head? = initial? raw := by
  have hcamel : (upperCamel raw.toList).head? =
      (raw.toList.find? isAlphanumeric).bind fun c => (upperForm c).head? := by
    rw [upperCamel, Text.head?_flatMap_capitalWord fun w hw => Text.ne_nil_of_mem_words hw,
      Text.flatten_words, List.head?_filter]
  rw [typeName, String.toList_ofList, initial?, ← hcamel]
  cases upperCamel raw.toList with
  | nil => rfl
  | cons c rest =>
    simp only [guardDigit, List.head?_cons, Option.map_some]
    split <;> rfl

theorem initial?_eq_none {raw : String} :
    initial? raw = none ↔ ∀ c ∈ raw.toList, isAlphanumeric c = false := by
  rw [initial?, Option.map_eq_none_iff, Option.bind_eq_none_iff]
  constructor
  · intro h c hc
    cases hfind : raw.toList.find? isAlphanumeric with
    | none => simpa using List.find?_eq_none.1 hfind c hc
    | some first =>
      exact absurd (List.head?_eq_none_iff.1 (h first hfind)) (Text.upperForm_ne_nil first)
  · intro h c hfind
    have hc := h c (List.mem_of_find?_eq_some hfind)
    rw [List.find?_some hfind] at hc
    cases hc

theorem not_digit_of_initial? {raw : String} {c : Char} (h : initial? raw = some c) :
    isAsciiDigit c = false := by
  obtain ⟨first, _, rfl⟩ := Option.map_eq_some_iff.1 h
  split
  · rfl
  · next hdigit => simpa using hdigit

end Naming

end ApiModel
