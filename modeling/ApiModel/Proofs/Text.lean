import ApiModel.Text.CharClass
import Mathlib.Logic.Function.Basic

namespace ApiModel

namespace Text

variable {separator : Char}

theorem splitAt_of_not_mem {s : List Char} (h : separator ∉ s) :
    splitAt separator s = [s] := by
  induction s with
  | nil => rfl
  | cons c s ih =>
    obtain ⟨hc, hs⟩ := not_or.1 (List.mem_cons.not.1 h)
    rw [splitAt, if_neg (Ne.symm hc), ih hs]

theorem splitAt_append {s : List Char} (h : separator ∉ s) (rest : List Char) :
    splitAt separator (s ++ separator :: rest) = s :: splitAt separator rest := by
  induction s with
  | nil => rw [List.nil_append, splitAt, if_pos rfl]
  | cons c s ih =>
    obtain ⟨hc, hs⟩ := not_or.1 (List.mem_cons.not.1 h)
    rw [List.cons_append, splitAt, if_neg (Ne.symm hc), ih hs]

theorem splitAt_join {s : List Char} (h : separator ∉ s) {pieces : List (List Char)}
    (hpieces : ∀ piece ∈ pieces, separator ∉ piece) :
    splitAt separator (s ++ pieces.flatMap (separator :: ·)) = s :: pieces := by
  induction pieces generalizing s with
  | nil => rw [List.flatMap_nil, List.append_nil, splitAt_of_not_mem h]
  | cons piece pieces ih =>
    obtain ⟨hpiece, hpieces⟩ := List.forall_mem_cons.1 hpieces
    rw [List.flatMap_cons, List.cons_append, splitAt_append h, ih hpiece hpieces]

theorem isDigit_of_mem_toString {n : Nat} {c : Char} (h : c ∈ (toString n).toList) :
    c.isDigit = true := by
  rw [Nat.toString_eq_repr, Nat.toList_repr] at h
  exact Nat.isDigit_of_mem_toDigits (by decide) (by decide) h

theorem toList_toString_ne_nil (n : Nat) : (toString n).toList ≠ [] := by
  rw [Nat.toString_eq_repr, Nat.toList_repr]
  exact Nat.toDigits_ne_nil

theorem toString_nat_injective : Function.Injective (toString : Nat → String) := by
  intro m n h
  have hlist := congrArg String.toList h
  simp only [Nat.toString_eq_repr, Nat.toList_repr] at hlist
  have hdigits := congrArg (Nat.ofDigitChars 10 · 0) hlist
  simpa only [Nat.ofDigitChars_ten_toDigits] using hdigits

end Text

end ApiModel
