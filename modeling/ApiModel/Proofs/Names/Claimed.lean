import ApiModel.Proofs.Names.Registry
import Mathlib.Data.List.Induction
import Mathlib.Order.Bounds.Basic

namespace ApiModel

theorem TypeNames.exists_child {n : TypeNames} (h : n.segments ≠ []) :
    ∃ parent last, n = child parent last := by
  obtain ⟨segments⟩ := n
  obtain ⟨init, last, rfl⟩ := (List.eq_nil_or_concat' segments).resolve_left h
  exact ⟨⟨init⟩, last, rfl⟩

theorem TypeNames.child_number_ne (parent : TypeNames) (last : String) (number : Nat) :
    parent.child (last ++ toString number) ≠ parent.child last := by
  intro h
  have hempty : toString number = "" := String.append_eq_left_iff.1 (child_inj h).2
  exact Text.toList_toString_ne_nil number (by rw [hempty]; rfl)

namespace NameRegistry

/-- What a candidate is called after the names that have been given: as it is if that is new, else
with the least number from two on behind its last segment that makes it new. No more numbers are
tried for it than names have been given. -/
inductive Calls (given : List TypeNames) : TypeNames → TypeNames → Prop
  | plain {candidate : TypeNames} : candidate ∉ given → Calls given candidate candidate
  | numbered {parent : TypeNames} {last : String} {number : Nat} : parent.child last ∈ given →
      IsLeast {k | 2 ≤ k ∧ parent.child (last ++ toString k) ∉ given} number →
        number ≤ given.length + 1 →
          Calls given (parent.child last) (parent.child (last ++ toString number))

variable {r : NameRegistry}

theorem isLeast_freeNumber (r : NameRegistry) (n : TypeNames) :
    IsLeast {k | 2 ≤ k ∧ n.numbered k ∉ r.taken} (r.freeNumber n (r.taken.length + 1) 2) := by
  refine ⟨⟨r.le_freeNumber n _ 2, r.numbered_freeNumber_not_mem n 2⟩, ?_⟩
  rintro k ⟨hk, hfree⟩
  by_contra hlt
  exact hfree (taken_of_lt_freeNumber hk (Nat.lt_of_not_le hlt))

theorem freeNumber_le {parent : TypeNames} {last : String} (h : parent.child last ∈ r.taken) :
    r.freeNumber (parent.child last) (r.taken.length + 1) 2 ≤ r.taken.length + 1 := by
  generalize hnumber : r.freeNumber (parent.child last) (r.taken.length + 1) 2 = number
  -- The candidate and all its numbered forms below the one that is found have been given.
  let passed := parent.child last ::
    (List.range (number - 2)).map fun i => parent.child (last ++ toString (2 + i))
  have hnodup : passed.Nodup := by
    refine List.nodup_cons.2 ⟨fun hmem => ?_, List.Nodup.map (fun i j hij => ?_) List.nodup_range⟩
    · obtain ⟨i, _, hi⟩ := List.mem_map.1 hmem
      exact TypeNames.child_number_ne parent last (2 + i) hi
    · have hsame := TypeNames.numbered_injective (n := parent.child last) (i := 2 + i) (j := 2 + j)
        (by rwa [TypeNames.numbered_child, TypeNames.numbered_child])
      omega
  have hsub : passed ⊆ r.taken := by
    refine List.cons_subset.2 ⟨h, fun name hname => ?_⟩
    obtain ⟨i, hi, rfl⟩ := List.mem_map.1 hname
    have hlt := List.mem_range.1 hi
    have hbelow : 2 + i < r.freeNumber (parent.child last) (r.taken.length + 1) 2 := by
      rw [hnumber]
      omega
    rw [← TypeNames.numbered_child]
    exact taken_of_lt_freeNumber (Nat.le_add_right 2 i) hbelow
  have hlength := hnodup.length_le_of_subset hsub
  simp only [passed, List.length_cons, List.length_map, List.length_range] at hlength
  omega

theorem calls_nameFor {given : List TypeNames} (hgiven : ∀ n, n ∈ r.taken ↔ n ∈ given)
    (hlength : r.taken.length = given.length) {candidate : TypeNames}
    (hne : candidate.segments ≠ []) : Calls given candidate (r.nameFor candidate) := by
  obtain ⟨parent, last, rfl⟩ := TypeNames.exists_child hne
  by_cases htaken : parent.child last ∈ r.taken
  · have hleast := r.isLeast_freeNumber (parent.child last)
    have hle := freeNumber_le htaken
    simp only [TypeNames.numbered_child, hgiven] at hleast
    rw [nameFor, if_pos htaken, TypeNames.numbered_child]
    exact .numbered ((hgiven _).1 htaken) hleast (hlength ▸ hle)
  · rw [nameFor_of_not_mem htaken]
    exact .plain fun h => htaken ((hgiven _).2 h)

theorem taken_claimAll (r : NameRegistry) (candidates : List TypeNames) :
    (r.claimAll candidates).2.taken = (r.claimAll candidates).1.reverse ++ r.taken := by
  induction candidates generalizing r with
  | nil => rfl
  | cons first rest ih =>
    rw [claimAll_cons, ih, List.reverse_cons, List.append_assoc]
    rfl

theorem length_claimAll (r : NameRegistry) (candidates : List TypeNames) :
    (r.claimAll candidates).1.length = candidates.length := by
  induction candidates generalizing r with
  | nil => rfl
  | cons first rest ih => rw [claimAll_cons, List.length_cons, ih, List.length_cons]

theorem nodup_claimAll (candidates : List TypeNames) :
    (claimAll {} candidates).1.Nodup := by
  induction candidates using List.reverseRecOn with
  | nil => exact List.nodup_nil
  | append_singleton candidates candidate ih =>
    have hnew := (claimAll {} candidates).2.nameFor_not_mem candidate
    rw [taken_claimAll, List.append_nil, List.mem_reverse] at hnew
    rw [claimAll_concat]
    exact List.concat_eq_append ▸ ih.concat hnew

theorem claimAll_calls (candidates : List TypeNames)
    (hne : ∀ candidate ∈ candidates, candidate.segments ≠ []) :
    (claimAll {} candidates).1.length = candidates.length ∧ (claimAll {} candidates).1.Nodup ∧
      ∀ (place : Nat) (candidate name : TypeNames), candidates[place]? = some candidate →
        (claimAll {} candidates).1[place]? = some name →
          Calls ((claimAll {} candidates).1.take place) candidate name := by
  refine ⟨length_claimAll {} candidates, nodup_claimAll candidates, ?_⟩
  induction candidates using List.reverseRecOn with
  | nil => simp
  | append_singleton candidates candidate ih =>
    obtain ⟨hne, hlast⟩ := List.forall_mem_append.1 hne
    have hlength := length_claimAll {} candidates
    have hcalls : Calls (claimAll {} candidates).1 candidate
        ((claimAll {} candidates).2.nameFor candidate) := by
      refine calls_nameFor (fun n => ?_) ?_ (hlast candidate List.mem_cons_self)
      · rw [taken_claimAll, List.append_nil, List.mem_reverse]
      · rw [taken_claimAll, List.append_nil, List.length_reverse]
    intro place found name hfound hname
    rw [claimAll_concat] at hname ⊢
    have hplace : place < candidates.length + 1 := by
      have hlt := (List.getElem?_eq_some_iff.1 hfound).1
      rwa [List.length_append, List.length_singleton] at hlt
    rcases Nat.lt_or_eq_of_le (Nat.le_of_lt_succ hplace) with hlt | rfl
    · rw [List.getElem?_append_left hlt] at hfound
      rw [List.getElem?_append_left (hlength.symm ▸ hlt)] at hname
      rw [List.take_append_of_le_length (hlength.symm ▸ Nat.le_of_lt hlt)]
      exact ih hne place found name hfound hname
    · rw [List.getElem?_concat_length, Option.some.injEq] at hfound
      rw [← hlength, List.getElem?_concat_length, Option.some.injEq] at hname
      rw [← hlength, List.take_left, ← hfound, ← hname]
      exact hcalls

def rivals : List TypeNames :=
  [.root "Pet2", .root "Pet", .root "Pet", .root "Pet2", (TypeNames.root "Pet").child "Owner",
    (TypeNames.root "Pet").child "Owner"]

theorem claimAll_calls_rivals : (∀ candidate ∈ rivals, candidate.segments ≠ []) ∧
    (claimAll {} rivals).1 = [.root "Pet2", .root "Pet", .root "Pet3", .root "Pet22",
      (TypeNames.root "Pet").child "Owner", (TypeNames.root "Pet").child "Owner2"] ∧
    (claimAll {} rivals).1.Nodup ∧
    Calls [.root "Pet2", .root "Pet"] (.root "Pet") (.root "Pet3") := by
  have hne : ∀ candidate ∈ rivals, candidate.segments ≠ [] := by decide
  have hnames : (claimAll {} rivals).1 = [.root "Pet2", .root "Pet", .root "Pet3", .root "Pet22",
      (TypeNames.root "Pet").child "Owner", (TypeNames.root "Pet").child "Owner2"] := by
    decide +kernel
  obtain ⟨_, hnodup, hcalls⟩ := claimAll_calls rivals hne
  have hthird := hcalls 2 (.root "Pet") (.root "Pet3") (by decide) (by rw [hnames]; rfl)
  rw [hnames] at hthird
  exact ⟨hne, hnames, hnodup, hthird⟩

end NameRegistry

end ApiModel
