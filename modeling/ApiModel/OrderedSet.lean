namespace ApiModel

abbrev OrderedSet (α : Type) := List α

namespace OrderedSet

variable {α : Type} [DecidableEq α]

def add (s : OrderedSet α) (a : α) : OrderedSet α := if a ∈ s then s else s ++ [a]

def addAll (s : OrderedSet α) (items : List α) : OrderedSet α := items.foldl add s

def ofList (items : List α) : OrderedSet α := addAll [] items

theorem mem_add {s : OrderedSet α} {a b : α} : b ∈ s.add a ↔ b ∈ s ∨ b = a := by
  unfold add
  split
  · next h => exact ⟨.inl, fun h' => h'.elim id (· ▸ h)⟩
  · simp

theorem nodup_add {s : OrderedSet α} (h : s.Nodup) (a : α) : (s.add a).Nodup := by
  unfold add
  split
  · exact h
  · next hn =>
    refine List.nodup_append.2 ⟨h, by simp, ?_⟩
    intro x hx y hy hxy
    simp only [List.mem_singleton] at hy
    exact hn (hy ▸ hxy ▸ hx)

theorem mem_addAll {s : OrderedSet α} {items : List α} {b : α} :
    b ∈ s.addAll items ↔ b ∈ s ∨ b ∈ items := by
  induction items generalizing s with
  | nil => simp [addAll]
  | cons a items ih =>
    have : s.addAll (a :: items) = (s.add a).addAll items := rfl
    rw [this, ih, mem_add]
    simp only [List.mem_cons]
    exact ⟨fun h => by rcases h with (h | h) | h <;> simp [h],
      fun h => by rcases h with h | h | h <;> simp [h]⟩

theorem nodup_addAll {s : OrderedSet α} (h : s.Nodup) (items : List α) :
    (s.addAll items).Nodup := by
  induction items generalizing s with
  | nil => exact h
  | cons a items ih => exact ih (nodup_add h a)

theorem mem_ofList {items : List α} {b : α} : b ∈ ofList items ↔ b ∈ items := by
  simp [ofList, mem_addAll]

theorem nodup_ofList (items : List α) : (ofList items).Nodup := nodup_addAll (by simp) items

end OrderedSet

end ApiModel
