import ApiModel.Proofs.Names.Marks
import ApiModel.Proofs.Names.Registry

namespace ApiModel

namespace TypeNames

def Dotless (segment : String) : Prop := '.' ∉ segment.toList

theorem Dotless.append {s t : String} (hs : Dotless s) (ht : Dotless t) : Dotless (s ++ t) := by
  rw [Dotless, String.toList_append, List.mem_append, not_or]
  exact ⟨hs, ht⟩

theorem dotless_number (n : Nat) : Dotless (toString n) := by
  intro hdot
  exact absurd (Text.isDigit_of_mem_toString hdot) (by decide)

theorem dotless_typeName (raw : String) : Dotless (Naming.typeName raw) := by
  have hcamel := Text.mark_dot.not_mem_upperCamel raw.toList
  rw [Dotless, Naming.typeName, String.toList_ofList]
  rcases Naming.guardDigit_cases (Text.upperCamel raw.toList) with hplain | hguarded
  · rw [hplain]
    exact hcamel
  · rw [hguarded, List.mem_cons, not_or]
    exact ⟨by decide, hcamel⟩

structure Plain (n : TypeNames) : Prop where
  ne_nil : n.segments ≠ []
  dotless : ∀ segment ∈ n.segments, Dotless segment

theorem plain_root {name : String} (h : Dotless name) : (root name).Plain :=
  ⟨by simp [root], by simpa [root] using h⟩

theorem Plain.child {n : TypeNames} (hn : n.Plain) {segment : String} (h : Dotless segment) :
    (n.child segment).Plain := by
  refine ⟨by simp, ?_⟩
  rw [segments_child, List.forall_mem_append]
  exact ⟨hn.dotless, List.forall_mem_singleton.2 h⟩

theorem Plain.numbered {n : TypeNames} (hn : n.Plain) (number : Nat) :
    (n.numbered number).Plain := by
  have hlast : n.last ∈ n.segments := by
    rw [last, List.getLast?_eq_some_getLast hn.ne_nil]
    exact List.getLast_mem hn.ne_nil
  have hnumbered : Dotless (n.last ++ toString number) :=
    (hn.dotless _ hlast).append (dotless_number number)
  refine ⟨by simp [TypeNames.numbered], List.forall_mem_append.2 ⟨fun s hs => ?_, ?_⟩⟩
  · exact hn.dotless s (List.dropLast_subset _ hs)
  · exact List.forall_mem_singleton.2 hnumbered

theorem Plain.nameFor {n : TypeNames} (hn : n.Plain) (r : NameRegistry) : (r.nameFor n).Plain :=
  NameRegistry.nameFor_induct hn hn.numbered

theorem Plain.dotted_inj {n m : TypeNames} (hn : n.Plain) (hm : m.Plain)
    (h : n.dotted = m.dotted) : n = m := by
  have hlists := congrArg String.toList h
  have hdot : ".".toList = ['.'] := rfl
  simp only [dotted, String.toList_intercalate, hdot] at hlists
  have hsplit : ∀ k : TypeNames, k.Plain →
      (['.'].intercalate (k.segments.map String.toList)).splitOn '.' =
        k.segments.map String.toList := by
    intro k hk
    refine List.splitOn_intercalate '.' (fun l hl => ?_) (by simpa using hk.ne_nil)
    obtain ⟨s, hs, rfl⟩ := List.mem_map.1 hl
    exact hk.dotless s hs
  have hsegments := hsplit n hn
  rw [hlists, hsplit m hm] at hsegments
  have hinj : Function.Injective String.toList := fun s t hst => String.toList_inj.1 hst
  exact congrArg TypeNames.mk (List.map_injective_iff.2 hinj hsegments).symm

end TypeNames

end ApiModel
