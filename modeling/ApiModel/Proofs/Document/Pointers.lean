import ApiModel.Document.Pointer
import ApiModel.Proofs.Text
import Mathlib.Data.List.Infix
import Mathlib.Data.Set.Lattice
import Mathlib.Order.CompletePartialOrder

namespace ApiModel

section Escape

def escapeChar (c : Char) : List Char :=
  if c = '~' then ['~', '0'] else if c = '/' then ['~', '1'] else [c]

theorem toList_escapeSegment (s : String) :
    (escapeSegment s).toList = s.toList.flatMap escapeChar := String.toList_ofList

theorem slash_not_mem_escapeSegment (s : String) : '/' ∉ (escapeSegment s).toList := by
  rw [toList_escapeSegment, List.mem_flatMap]
  rintro ⟨c, -, hc⟩
  unfold escapeChar at hc
  split_ifs at hc with htilde hslash
  · simp at hc
  · simp at hc
  · exact hslash (List.mem_singleton.1 hc).symm

theorem escapeChar_ne_nil (c : Char) : escapeChar c ≠ [] := by
  unfold escapeChar
  split_ifs <;> simp

theorem escapeChar_append {c d : Char} {u v : List Char}
    (h : escapeChar c ++ u = escapeChar d ++ v) : c = d ∧ u = v := by
  grind [escapeChar]

theorem flatMap_escapeChar_injective : Function.Injective (List.flatMap escapeChar) := by
  intro u v h
  induction u generalizing v with
  | nil =>
    cases v with
    | nil => rfl
    | cons d v => exact (escapeChar_ne_nil d (List.append_eq_nil_iff.1 h.symm).1).elim
  | cons c u ih =>
    cases v with
    | nil => exact (escapeChar_ne_nil c (List.append_eq_nil_iff.1 h).1).elim
    | cons d v =>
      rw [List.flatMap_cons, List.flatMap_cons] at h
      obtain ⟨rfl, huv⟩ := escapeChar_append h
      rw [ih huv]

theorem escapeSegment_injective : Function.Injective escapeSegment := by
  intro s t h
  have hlist := congrArg String.toList h
  rw [toList_escapeSegment, toList_escapeSegment] at hlist
  exact String.toList_inj.1 (flatMap_escapeChar_injective hlist)

theorem escapeSegment_eq {s : String} (h : ∀ c ∈ s.toList, c ≠ '~' ∧ c ≠ '/') :
    escapeSegment s = s := by
  refine String.toList_inj.1 ?_
  rw [toList_escapeSegment]
  refine (List.flatMap_congr fun c hc => ?_).trans (List.flatMap_singleton' _)
  rw [escapeChar, if_neg (h c hc).1, if_neg (h c hc).2]

theorem escapeSegment_toString (n : Nat) : escapeSegment (toString n) = toString n := by
  refine escapeSegment_eq fun c hc => ?_
  have hdigit := Text.isDigit_of_mem_toString hc
  constructor <;> rintro rfl <;> exact absurd hdigit (by decide)

end Escape

abbrev Place := List String

namespace Place

variable {p q : Place}

def pointer (p : Place) : String :=
  p.foldl (fun text key => text ++ "/" ++ escapeSegment key) "#"

theorem pointer_push (p : Place) (key : String) :
    pointer (p ++ [key]) = p.pointer ++ "/" ++ escapeSegment key := List.foldl_append

theorem toList_pointer (p : Place) : p.pointer.toList =
    ['#'] ++ (p.map fun key => (escapeSegment key).toList).flatMap ('/' :: ·) := by
  induction p using List.reverseRecOn with
  | nil => rfl
  | append_singleton p key ih =>
    rw [pointer_push, String.toList_append, String.toList_append, ih, List.map_append,
      List.flatMap_append, ← List.append_assoc, List.append_assoc]
    simp

theorem splitAt_pointer (p : Place) : Text.splitAt '/' p.pointer.toList =
    ['#'] :: p.map fun key => (escapeSegment key).toList := by
  rw [toList_pointer]
  refine Text.splitAt_join (by decide) fun piece hpiece => ?_
  obtain ⟨key, -, rfl⟩ := List.mem_map.1 hpiece
  exact slash_not_mem_escapeSegment key

theorem pointer_injective : Function.Injective pointer := by
  intro p q h
  have hkeys := congrArg (fun text => Text.splitAt '/' text.toList) h
  simp only [splitAt_pointer] at hkeys
  refine List.map_injective_iff.2 (fun s t hst => ?_) (List.cons.inj hkeys).2
  exact escapeSegment_injective (String.toList_inj.1 hst)

def Under (p : Place) : Set Place := {q | p <+: q}

theorem self_mem_under (p : Place) : p ∈ Under p := List.prefix_refl p

theorem under_append (p q : Place) : Under (p ++ q) ⊆ Under p :=
  fun _ h => (List.prefix_append p q).trans h

theorem disjoint_under (h : ¬ p <+: q) (h' : ¬ q <+: p) : Disjoint (Under p) (Under q) := by
  refine Set.disjoint_left.2 fun _ hp hq => ?_
  rcases List.prefix_or_prefix_of_prefix hp hq with hpq | hqp
  · exact h hpq
  · exact h' hqp

theorem disjoint_keys (p : Place) {a b : String} (h : a ≠ b) (u v : Place) :
    Disjoint (Under (p ++ a :: u)) (Under (p ++ b :: v)) := by
  refine disjoint_under ?_ ?_ <;> rw [List.prefix_append_right_inj, List.cons_prefix_cons]
  · exact fun hab => h hab.1
  · exact fun hab => h hab.1.symm

section

variable {α : Type} {areas : α → Set Place} {area : Set Place} {xs : List α}

def Among (areas : α → Set Place) (xs : List α) : Set Place := {p | ∃ x ∈ xs, p ∈ areas x}

theorem disjoint_among (h : ∀ x ∈ xs, Disjoint area (areas x)) :
    Disjoint area (Among areas xs) := by
  refine Set.disjoint_left.2 ?_
  rintro p hp ⟨x, hx, hpx⟩
  exact Set.disjoint_left.1 (h x hx) hp hpx

theorem among_subset (h : ∀ x ∈ xs, areas x ⊆ area) : Among areas xs ⊆ area := by
  rintro p ⟨x, hx, hp⟩
  exact h x hx hp

theorem among_cons (areas : α → Set Place) (x : α) (xs : List α) :
    Among areas (x :: xs) = areas x ∪ Among areas xs := by
  ext p
  simp only [Among, Set.mem_ofPred_eq, Set.mem_union, List.mem_cons, exists_eq_or_imp]

end

end Place

end ApiModel
