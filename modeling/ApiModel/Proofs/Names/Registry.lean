import ApiModel.NameRegistry
import ApiModel.Proofs.Text
import Mathlib.Data.List.Nodup

namespace ApiModel

theorem TypeNames.numbered_injective {n : TypeNames} {i j : Nat}
    (h : n.numbered i = n.numbered j) : i = j := by
  simp only [numbered, mk.injEq, List.append_cancel_left_eq, List.cons.injEq, and_true] at h
  have hlist := congrArg String.toList h
  rw [String.toList_append, String.toList_append, List.append_cancel_left_eq] at hlist
  exact Text.toString_nat_injective (String.toList_inj.1 hlist)

theorem TypeNames.numbered_root (name : String) (number : Nat) :
    (root name).numbered number = root (name ++ toString number) := rfl

theorem TypeNames.numbered_child (n : TypeNames) (segment : String) (number : Nat) :
    (n.child segment).numbered number = n.child (segment ++ toString number) := by
  have hlast : (n.child segment).last = segment := last_child n segment
  rw [numbered, hlast]
  simp only [child, List.dropLast_concat]

theorem TypeNames.length_numbered {n : TypeNames} (h : n.segments ≠ []) (number : Nat) :
    (n.numbered number).segments.length = n.segments.length := by
  have hpos := List.length_pos_of_ne_nil h
  simp only [numbered, List.length_append, List.length_dropLast, List.length_singleton]
  omega

theorem TypeNames.child_inj {n m : TypeNames} {s t : String} (h : n.child s = m.child t) :
    n = m ∧ s = t := by
  simp only [child, mk.injEq] at h
  obtain ⟨hsegments, hlast⟩ := List.append_inj' h rfl
  exact ⟨congrArg mk hsegments, List.singleton_injective hlast⟩

namespace NameRegistry

variable {r : NameRegistry}

theorem taken_of_freeNumber_taken {n : TypeNames} {tries number : Nat}
    (h : n.numbered (r.freeNumber n tries number) ∈ r.taken) :
    ∀ i ≤ tries, n.numbered (number + i) ∈ r.taken := by
  induction tries generalizing number with
  | zero =>
    intro i hi
    have hzero : i = 0 := by omega
    subst hzero
    exact h
  | succ tries ih =>
    unfold freeNumber at h
    split at h
    · next htaken =>
      intro i hi
      cases i with
      | zero => exact htaken
      | succ i =>
        have hrest := ih h i (by omega)
        rwa [Nat.add_assoc, Nat.add_comm 1 i] at hrest
    · next hfree => exact absurd h hfree

theorem numbered_freeNumber_not_mem (r : NameRegistry) (n : TypeNames) (number : Nat) :
    n.numbered (r.freeNumber n (r.taken.length + 1) number) ∉ r.taken := by
  intro h
  have htaken := taken_of_freeNumber_taken h
  have hnodup : ((List.range (r.taken.length + 2)).map fun i => n.numbered (number + i)).Nodup := by
    refine List.Nodup.map (fun i j hij => ?_) List.nodup_range
    have := TypeNames.numbered_injective hij
    omega
  have hsub : ((List.range (r.taken.length + 2)).map fun i => n.numbered (number + i)) ⊆
      r.taken := by
    intro m hm
    obtain ⟨i, hi, rfl⟩ := List.mem_map.1 hm
    have := List.mem_range.1 hi
    exact htaken i (by omega)
  have hle := hnodup.length_le_of_subset hsub
  simp only [List.length_map, List.length_range] at hle
  omega

theorem nameFor_not_mem (r : NameRegistry) (candidate : TypeNames) :
    r.nameFor candidate ∉ r.taken := by
  unfold nameFor
  split
  · exact r.numbered_freeNumber_not_mem candidate 2
  · next hfree => exact hfree

theorem le_freeNumber (r : NameRegistry) (n : TypeNames) (tries number : Nat) :
    number ≤ r.freeNumber n tries number := by
  induction tries generalizing number with
  | zero => exact Nat.le_refl _
  | succ tries ih =>
    unfold freeNumber
    split
    · have hnext := ih (number + 1)
      omega
    · exact Nat.le_refl _

theorem nameFor_of_not_mem {candidate : TypeNames} (h : candidate ∉ r.taken) :
    r.nameFor candidate = candidate := if_neg h

theorem nameFor_of_mem {candidate : TypeNames} (h : candidate ∈ r.taken) :
    ∃ number, 2 ≤ number ∧ r.nameFor candidate = candidate.numbered number :=
  ⟨_, r.le_freeNumber candidate _ 2, if_pos h⟩

theorem nameFor_induct {P : TypeNames → Prop} {candidate : TypeNames} (plain : P candidate)
    (numbered : ∀ number, P (candidate.numbered number)) : P (r.nameFor candidate) := by
  unfold nameFor
  split
  · exact numbered _
  · exact plain

theorem length_nameFor {candidate : TypeNames} (h : candidate.segments ≠ []) :
    (r.nameFor candidate).segments.length = candidate.segments.length :=
  nameFor_induct (P := fun n => n.segments.length = candidate.segments.length) rfl
    (TypeNames.length_numbered h)

theorem taken_of_lt_freeNumber {n : TypeNames} {tries number i : Nat} (hle : number ≤ i)
    (hlt : i < r.freeNumber n tries number) : n.numbered i ∈ r.taken := by
  induction tries generalizing number with
  | zero =>
    unfold freeNumber at hlt
    omega
  | succ tries ih =>
    unfold freeNumber at hlt
    split at hlt
    · next htaken =>
      rcases Nat.eq_or_lt_of_le hle with rfl | hnext
      · exact htaken
      · exact ih hnext hlt
    · omega

def SameNames (length : Nat) (r r' : NameRegistry) : Prop :=
  ∀ n : TypeNames, n.segments.length = length → (n ∈ r.taken ↔ n ∈ r'.taken)

variable {r' r'' : NameRegistry} {length : Nat} {candidate : TypeNames}

theorem SameNames.refl (length : Nat) (r : NameRegistry) : SameNames length r r :=
  fun _ _ => Iff.rfl

theorem SameNames.symm (h : SameNames length r r') : SameNames length r' r :=
  fun n hn => (h n hn).symm

theorem SameNames.trans (h : SameNames length r r') (h' : SameNames length r' r'') :
    SameNames length r r'' := fun n hn => (h n hn).trans (h' n hn)

theorem SameNames.freeNumber_le (h : SameNames candidate.segments.length r r')
    (hne : candidate.segments ≠ []) :
    r'.freeNumber candidate (r'.taken.length + 1) 2 ≤
      r.freeNumber candidate (r.taken.length + 1) 2 := by
  by_contra hlt
  have htaken := taken_of_lt_freeNumber (r.le_freeNumber candidate _ 2) (Nat.lt_of_not_le hlt)
  exact r.numbered_freeNumber_not_mem candidate 2
    ((h _ (TypeNames.length_numbered hne _)).2 htaken)

theorem SameNames.nameFor (h : SameNames candidate.segments.length r r')
    (hne : candidate.segments ≠ []) : r.nameFor candidate = r'.nameFor candidate := by
  have hnumber : r.freeNumber candidate (r.taken.length + 1) 2 =
      r'.freeNumber candidate (r'.taken.length + 1) 2 :=
    Nat.le_antisymm (h.symm.freeNumber_le hne) (h.freeNumber_le hne)
  unfold NameRegistry.nameFor
  rw [hnumber]
  by_cases hmem : candidate ∈ r.taken
  · rw [if_pos hmem, if_pos ((h candidate rfl).1 hmem)]
  · rw [if_neg hmem, if_neg fun hmem' => hmem ((h candidate rfl).2 hmem')]

theorem claimAll_cons (r : NameRegistry) (candidate : TypeNames) (rest : List TypeNames) :
    r.claimAll (candidate :: rest) =
      (r.nameFor candidate :: ((r.claim candidate).2.claimAll rest).1,
        ((r.claim candidate).2.claimAll rest).2) := rfl

theorem claimAll_concat (r : NameRegistry) (candidates : List TypeNames) (candidate : TypeNames) :
    r.claimAll (candidates ++ [candidate]) =
      ((r.claimAll candidates).1 ++ [(r.claimAll candidates).2.nameFor candidate],
        ((r.claimAll candidates).2.claim candidate).2) := by
  induction candidates generalizing r with
  | nil => rfl
  | cons first rest ih =>
    rw [List.cons_append, claimAll_cons, claimAll_cons, ih]
    rfl

theorem claimAll_of_nodup {candidates : List TypeNames} (hnodup : candidates.Nodup)
    (hfresh : ∀ candidate ∈ candidates, candidate ∉ r.taken) :
    (r.claimAll candidates).1 = candidates := by
  induction candidates generalizing r with
  | nil => rfl
  | cons first rest ih =>
    obtain ⟨hnot, hnodup⟩ := List.nodup_cons.1 hnodup
    obtain ⟨hfirst, hfresh⟩ := List.forall_mem_cons.1 hfresh
    have hname : r.nameFor first = first := nameFor_of_not_mem hfirst
    have hrest : ∀ candidate ∈ rest, candidate ∉ (r.claim first).2.taken := by
      intro candidate hmem htaken
      rw [claim, hname] at htaken
      rcases List.mem_cons.1 htaken with rfl | htaken
      · exact hnot hmem
      · exact hfresh candidate hmem htaken
    rw [claimAll_cons, hname, ih hnodup hrest]

end NameRegistry

end ApiModel
