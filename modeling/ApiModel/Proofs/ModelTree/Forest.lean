import Mathlib.Data.List.Nodup
import Mathlib.Data.List.Perm.Basic
import Mathlib.Logic.Relation

namespace ApiModel

def Above (parent : Nat → Option Nat) (a i : Nat) : Prop :=
  Relation.ReflTransGen (fun c p => parent c = some p) i a

structure Levels (parent : Nat → Option Nat) (level : Nat → Nat) : Prop where
  root : ∀ i, parent i = none → level i = 0
  child : ∀ c p, parent c = some p → level c = level p + 1

structure Forest (size : Nat) (roots : List Nat) (parent : Nat → Option Nat)
    (children : Nat → List Nat) : Prop where
  roots_nodup : roots.Nodup
  mem_roots : ∀ i, i ∈ roots ↔ i < size ∧ parent i = none
  children_nodup : ∀ p, (children p).Nodup
  mem_children : ∀ p c, c ∈ children p ↔ parent c = some p
  bounded : ∀ c p, parent c = some p → c < size ∧ p < size
  levels : ∃ level, Levels parent level

section

variable {parent : Nat → Option Nat} {level : Nat → Nat} {a b i j : Nat}

theorem Above.refl (parent : Nat → Option Nat) (i : Nat) : Above parent i i :=
  Relation.ReflTransGen.refl

theorem Above.of_parent {p : Nat} (hp : parent i = some p) (h : Above parent a p) :
    Above parent a i := Relation.ReflTransGen.head hp h

theorem above_iff_parent :
    Above parent a i ↔ a = i ∨ ∃ p, parent i = some p ∧ Above parent a p := by
  constructor
  · intro h
    rcases Relation.ReflTransGen.cases_head h with rfl | ⟨p, hp, h⟩
    · exact .inl rfl
    · exact .inr ⟨p, hp, h⟩
  · rintro (rfl | ⟨p, hp, h⟩)
    · exact .refl parent a
    · exact .of_parent hp h

theorem above_iff_child :
    Above parent a i ↔ i = a ∨ ∃ c, parent c = some a ∧ Above parent c i := by
  constructor
  · intro h
    rcases Relation.ReflTransGen.cases_tail h with rfl | ⟨c, h, hc⟩
    · exact .inl rfl
    · exact .inr ⟨c, hc, h⟩
  · rintro (rfl | ⟨c, hc, h⟩)
    · exact .refl parent i
    · exact Relation.ReflTransGen.tail h hc

theorem eq_of_above_root (hi : parent i = none) (h : Above parent a i) : a = i := by
  rcases above_iff_parent.1 h with rfl | ⟨p, hp, _⟩
  · rfl
  · rw [hi] at hp
    cases hp

namespace Levels

theorem le_of_above (hl : Levels parent level) (h : Above parent a i) : level a ≤ level i := by
  induction h with
  | refl => exact Nat.le_refl _
  | tail _ hp ih =>
    have := hl.child _ _ hp
    omega

theorem eq_of_above (hl : Levels parent level) (h : Above parent a i) (he : level a = level i) :
    a = i := by
  rcases above_iff_parent.1 h with rfl | ⟨p, hp, h⟩
  · rfl
  · have := hl.le_of_above h
    have := hl.child _ _ hp
    omega

theorem above_unique (hl : Levels parent level) (ha : Above parent a i) (hb : Above parent b i)
    (he : level a = level b) : a = b := by
  have hunique : Relator.RightUnique fun c p => parent c = some p := by
    intro c p q hp hq
    rw [hp] at hq
    exact Option.some.inj hq
  rcases Relation.ReflTransGen.total_of_right_unique hunique ha hb with h | h
  · exact (hl.eq_of_above h he.symm).symm
  · exact hl.eq_of_above h he

end Levels

end

namespace Forest

variable {size : Nat} {roots : List Nat} {parent : Nat → Option Nat} {children : Nat → List Nat}

theorem empty : Forest 0 [] (fun _ => none) fun _ => [] where
  roots_nodup := List.nodup_nil
  mem_roots := by simp
  children_nodup _ := List.nodup_nil
  mem_children := by simp
  bounded := by simp
  levels := ⟨fun _ => 0, fun _ _ => rfl, by simp⟩

theorem parent_none (h : Forest size roots parent children) {i : Nat} (hi : size ≤ i) :
    parent i = none := by
  cases hp : parent i with
  | none => rfl
  | some p =>
    have := (h.bounded i p hp).1
    omega

theorem exists_levels_grow (h : Forest size roots parent children) {above : Option Nat}
    (hp : ∀ p, above = some p → p < size) :
    ∃ level, Levels (fun i => if i = size then above else parent i) level := by
  obtain ⟨level, hl⟩ := h.levels
  have hold : parent size = none := h.parent_none (Nat.le_refl size)
  refine ⟨fun i => if i = size then (above.map (level · + 1)).getD 0 else level i,
    fun i hi => ?_, fun c p hc => ?_⟩
  · by_cases his : i = size
    · simp only [his, if_true] at hi ⊢
      simp [hi]
    · simp only [his, if_false] at hi ⊢
      exact hl.root i hi
  · have hps : p ≠ size := by
      by_cases hcs : c = size
      · simp only [hcs, if_true] at hc
        exact Nat.ne_of_lt (hp p hc)
      · simp only [hcs, if_false] at hc
        exact Nat.ne_of_lt (h.bounded c p hc).2
    by_cases hcs : c = size
    · simp only [hcs, if_true] at hc
      simp [hcs, hc, hps]
    · simp only [hcs, if_false] at hc
      simp only [hcs, hps, if_false]
      exact hl.child c p hc

theorem grow (h : Forest size roots parent children) {above : Option Nat}
    (hp : ∀ p, above = some p → p < size) :
    Forest (size + 1) (if above = none then roots ++ [size] else roots)
      (fun i => if i = size then above else parent i)
      fun p => if above = some p then children p ++ [size] else children p where
  roots_nodup := by
    split
    · have hnew : size ∉ roots := fun hs => Nat.lt_irrefl _ ((h.mem_roots size).1 hs).1
      exact List.concat_eq_append ▸ h.roots_nodup.concat hnew
    · exact h.roots_nodup
  mem_roots i := by
    have hsize : size ∉ roots := fun hs => Nat.lt_irrefl _ ((h.mem_roots size).1 hs).1
    by_cases hi : i = size
    · subst hi
      cases above <;> simp [hsize]
    · have hroots := h.mem_roots i
      have hlt : i < size + 1 ↔ i < size := by omega
      split <;> simp [hi, hlt, hroots]
  children_nodup p := by
    split
    · have hnew : size ∉ children p := by
        simp [h.mem_children, h.parent_none (Nat.le_refl size)]
      exact List.concat_eq_append ▸ (h.children_nodup p).concat hnew
    · exact h.children_nodup p
  mem_children p c := by
    have hchildren := h.mem_children p c
    have hold : parent size = none := h.parent_none (Nat.le_refl size)
    by_cases hc : c = size
    · subst hc
      have hnot : c ∉ children p := by simp [hchildren, hold]
      split
      · next hp => simp [hp]
      · next hp => simp [hp, hnot]
    · split <;> simp [hc, hchildren]
  bounded c p hc := by
    split at hc
    · have := hp p hc
      omega
    · have := h.bounded c p hc
      omega
  levels := h.exists_levels_grow hp

theorem exists_levels_move (h : Forest size roots parent children) {root under : Nat}
    (hroot : parent root = none) (hnot : ¬Above parent root under) :
    ∃ level, Levels (fun i => if i = root then some under else parent i) level := by
  classical
  obtain ⟨level, hl⟩ := h.levels
  -- all that is below the moved root goes down by as much as the root does
  refine ⟨fun i => if Above parent root i then level i + level under + 1 else level i,
    fun i hi => ?_, fun c p hc => ?_⟩
  · by_cases hir : i = root
    · simp [hir] at hi
    · simp only [hir, if_false] at hi
      have hbelow : ¬Above parent root i := fun ha => hir (eq_of_above_root hi ha).symm
      simp only [hbelow, if_false]
      exact hl.root i hi
  · by_cases hcr : c = root
    · subst hcr
      simp only [if_true, Option.some.injEq] at hc
      subst hc
      simp only [Above.refl, hnot, if_true, if_false, hl.root c hroot]
      omega
    · simp only [hcr, if_false] at hc
      have hstep : Above parent root c ↔ Above parent root p := by
        rw [above_iff_parent]
        constructor
        · rintro (rfl | ⟨q, hq, ha⟩)
          · exact absurd rfl hcr
          · rw [hc] at hq
            cases hq
            exact ha
        · intro ha
          exact .inr ⟨p, hc, ha⟩
      have hlevel := hl.child c p hc
      simp only [hstep]
      split <;> omega

theorem move (h : Forest size roots parent children) {root under : Nat} (hr : root < size)
    (hroot : parent root = none) (hu : under < size) (hnot : ¬Above parent root under) :
    Forest size (roots.filter (· != root))
      (fun i => if i = root then some under else parent i)
      fun p => if p = under then children p ++ [root] else children p where
  roots_nodup := h.roots_nodup.filter _
  mem_roots i := by
    have hroots := h.mem_roots i
    by_cases hi : i = root
    · simp [hi]
    · simp [hi, hroots]
  children_nodup p := by
    split
    · have hnew : root ∉ children p := by simp [h.mem_children, hroot]
      exact List.concat_eq_append ▸ (h.children_nodup p).concat hnew
    · exact h.children_nodup p
  mem_children p c := by
    have hchildren := h.mem_children p c
    by_cases hc : c = root
    · subst hc
      have hchild : c ∉ children p := by simp [hchildren, hroot]
      by_cases hpu : p = under
      · simp [hpu]
      · simp [hpu, hchild, Ne.symm hpu]
    · split <;> simp [hc, hchildren]
  bounded c p hc := by
    split at hc
    · cases hc
      omega
    · exact h.bounded c p hc
  levels := h.exists_levels_move hroot hnot

theorem level_lt (h : Forest size roots parent children) {level : Nat → Nat}
    (hl : Levels parent level) {i : Nat} (hi : i < size) : level i < size := by
  have hlevels : ∀ k, k ≤ level i → ∃ j, j < size ∧ level j = level i - k := by
    intro k
    induction k with
    | zero => exact fun _ => ⟨i, hi, rfl⟩
    | succ k ih =>
      intro hk
      obtain ⟨j, hj, hlevel⟩ := ih (by omega)
      cases hp : parent j with
      | none =>
        have := hl.root j hp
        omega
      | some p =>
        have := hl.child j p hp
        exact ⟨p, (h.bounded j p hp).2, by omega⟩
  choose! at_ hlt heq using hlevels
  have hnodup : ((List.range (level i + 1)).map at_).Nodup := by
    refine List.Nodup.map_on (fun k hk l hm hkl => ?_) List.nodup_range
    have hk' := heq k (by rw [List.mem_range] at hk; omega)
    have hl' := heq l (by rw [List.mem_range] at hm; omega)
    rw [hkl] at hk'
    rw [List.mem_range] at hk hm
    omega
  have hsub : (List.range (level i + 1)).map at_ ⊆ List.range size := by
    intro j hj
    obtain ⟨k, hk, rfl⟩ := List.mem_map.1 hj
    rw [List.mem_range] at hk ⊢
    exact hlt k (by omega)
  have hle := hnodup.length_le_of_subset hsub
  simp only [List.length_map, List.length_range] at hle
  omega

end Forest

def preorder (children : Nat → List Nat) : Nat → Nat → List Nat
  | 0, _ => []
  | depth + 1, i => i :: (children i).flatMap (preorder children depth)

namespace Forest

variable {size : Nat} {roots : List Nat} {parent : Nat → Option Nat} {children : Nat → List Nat}
  {level : Nat → Nat}

theorem mem_preorder (h : Forest size roots parent children) (hl : Levels parent level)
    {depth i j : Nat} (hi : i < size) (hdepth : size ≤ depth + level i) :
    j ∈ preorder children depth i ↔ Above parent i j := by
  induction depth generalizing i with
  | zero =>
    have := h.level_lt hl hi
    omega
  | succ depth ih =>
    rw [preorder, List.mem_cons, List.mem_flatMap, above_iff_child]
    have hchild : ∀ c, parent c = some i →
        (j ∈ preorder children depth c ↔ Above parent c j) := by
      intro c hc
      have hlevel := hl.child c i hc
      exact ih (h.bounded c i hc).1 (by omega)
    constructor
    · rintro (hj | ⟨c, hc, hj⟩)
      · exact .inl hj
      · have hp := (h.mem_children i c).1 hc
        exact .inr ⟨c, hp, (hchild c hp).1 hj⟩
    · rintro (hj | ⟨c, hp, hj⟩)
      · exact .inl hj
      · exact .inr ⟨c, (h.mem_children i c).2 hp, (hchild c hp).2 hj⟩

theorem nodup_flatMap_preorder (h : Forest size roots parent children) (hl : Levels parent level)
    {depth height : Nat} {l : List Nat} (hnodup : l.Nodup)
    (hlevel : ∀ i ∈ l, i < size ∧ level i = height) (hdepth : size ≤ depth + height)
    (heach : ∀ i ∈ l, (preorder children depth i).Nodup) :
    (l.flatMap (preorder children depth)).Nodup := by
  refine List.nodup_flatMap.2 ⟨heach, ?_⟩
  refine List.Pairwise.imp_of_mem (fun {a b} ha hb hne j hja hjb => ?_) hnodup
  obtain ⟨has, hla⟩ := hlevel a ha
  obtain ⟨hbs, hlb⟩ := hlevel b hb
  have haj := (h.mem_preorder hl has (by omega)).1 hja
  have hbj := (h.mem_preorder hl hbs (by omega)).1 hjb
  exact hne (hl.above_unique haj hbj (by omega))

theorem nodup_preorder (h : Forest size roots parent children) (hl : Levels parent level)
    {depth i : Nat} (hi : i < size) (hdepth : size ≤ depth + level i) :
    (preorder children depth i).Nodup := by
  induction depth generalizing i with
  | zero => exact List.nodup_nil
  | succ depth ih =>
    have hchild : ∀ c ∈ children i, c < size ∧ level c = level i + 1 := by
      intro c hc
      have hp := (h.mem_children i c).1 hc
      exact ⟨(h.bounded c i hp).1, hl.child c i hp⟩
    refine List.nodup_cons.2 ⟨fun hmem => ?_, ?_⟩
    · obtain ⟨c, hc, hmem⟩ := List.mem_flatMap.1 hmem
      obtain ⟨hcs, hcl⟩ := hchild c hc
      have := hl.le_of_above ((h.mem_preorder hl hcs (by omega)).1 hmem)
      omega
    · refine h.nodup_flatMap_preorder hl (h.children_nodup i) hchild (by omega) fun c hc => ?_
      obtain ⟨hcs, hcl⟩ := hchild c hc
      exact ih hcs (by omega)

theorem exists_root_above (h : Forest size roots parent children) (hl : Levels parent level)
    {i : Nat} (hi : i < size) : ∃ root ∈ roots, Above parent root i := by
  induction hn : level i generalizing i with
  | zero =>
    cases hp : parent i with
    | none => exact ⟨i, (h.mem_roots i).2 ⟨hi, hp⟩, .refl parent i⟩
    | some p =>
      have := hl.child i p hp
      omega
  | succ n ih =>
    cases hp : parent i with
    | none =>
      have := hl.root i hp
      omega
    | some p =>
      have hlevel := hl.child i p hp
      obtain ⟨root, hroot, ha⟩ := ih (h.bounded i p hp).2 (by omega)
      exact ⟨root, hroot, .of_parent hp ha⟩

theorem preorder_perm (h : Forest size roots parent children) {depth : Nat}
    (hdepth : size ≤ depth) :
    (roots.flatMap (preorder children depth)).Perm (List.range size) := by
  obtain ⟨level, hl⟩ := h.levels
  have hroot : ∀ i ∈ roots, i < size ∧ level i = 0 := by
    intro i hi
    obtain ⟨his, hp⟩ := (h.mem_roots i).1 hi
    exact ⟨his, hl.root i hp⟩
  have hnodup : (roots.flatMap (preorder children depth)).Nodup := by
    refine h.nodup_flatMap_preorder hl h.roots_nodup hroot hdepth fun i hi => ?_
    exact h.nodup_preorder hl (hroot i hi).1 (by omega)
  refine (List.perm_ext_iff_of_nodup hnodup List.nodup_range).2 fun j => ?_
  rw [List.mem_flatMap, List.mem_range]
  constructor
  · rintro ⟨i, hi, hj⟩
    have ha := (h.mem_preorder hl (hroot i hi).1 (by omega)).1 hj
    rcases above_iff_parent.1 ha with rfl | ⟨p, hp, _⟩
    · exact (hroot i hi).1
    · exact (h.bounded j p hp).1
  · intro hj
    obtain ⟨root, hr, ha⟩ := h.exists_root_above hl hj
    exact ⟨root, hr, (h.mem_preorder hl (hroot root hr).1 (by omega)).2 ha⟩

end Forest

end ApiModel
