namespace ApiModel

abbrev OrderedMap (α β : Type) := List (α × β)

namespace OrderedMap

variable {α β : Type} [DecidableEq α]

def get? : OrderedMap α β → α → Option β
  | [], _ => none
  | (k, v) :: rest, key => if k = key then some v else get? rest key

def contains (m : OrderedMap α β) (key : α) : Bool := (m.get? key).isSome

def keys (m : OrderedMap α β) : List α := m.map Prod.fst

def values (m : OrderedMap α β) : List β := m.map Prod.snd

def insert : OrderedMap α β → α → β → OrderedMap α β
  | [], key, value => [(key, value)]
  | (k, v) :: rest, key, value =>
      if k = key then (k, value) :: rest else (k, v) :: insert rest key value

def insertNew (m : OrderedMap α β) (key : α) (value : β) : OrderedMap α β :=
  if m.contains key then m else m.insert key value

def alter (m : OrderedMap α β) (key : α) (fallback : β) (f : β → β) : OrderedMap α β :=
  m.insert key (f ((m.get? key).getD fallback))

def insertAll (m other : OrderedMap α β) : OrderedMap α β :=
  other.foldl (fun acc entry => acc.insert entry.1 entry.2) m

def ofList (entries : List (α × β)) : OrderedMap α β := insertAll [] entries

/-- Puts the last entry into the place of the first one with this key. -/
def swapErase (m : OrderedMap α β) (key : α) : OrderedMap α β :=
  match m with
  | [] => []
  | (k, v) :: rest =>
      if k = key then
        match rest.getLast? with
        | none => []
        | some last => last :: rest.dropLast
      else (k, v) :: swapErase rest key

def take (m : OrderedMap α β) (key : α) : Option β × OrderedMap α β :=
  match m.get? key with
  | none => (none, m)
  | some value => (some value, m.swapErase key)

@[simp] theorem get?_nil (key : α) : get? ([] : OrderedMap α β) key = none := rfl

theorem get?_insert_self (m : OrderedMap α β) (key : α) (value : β) :
    (m.insert key value).get? key = some value := by
  induction m with
  | nil => simp [insert, get?]
  | cons e rest ih =>
    obtain ⟨k, v⟩ := e
    by_cases h : k = key <;> simp [insert, get?, h, ih]

theorem get?_insert_of_ne (m : OrderedMap α β) {key other : α} (value : β) (h : other ≠ key) :
    (m.insert key value).get? other = m.get? other := by
  induction m with
  | nil => simp [insert, get?, h.symm]
  | cons e rest ih =>
    obtain ⟨k, v⟩ := e
    by_cases hk : k = key
    · subst hk
      simp [insert, get?, h.symm]
    · simp only [insert, hk, if_false, get?, ih]

theorem mem_of_get? {m : OrderedMap α β} {key : α} {value : β} (h : m.get? key = some value) :
    (key, value) ∈ m := by
  induction m with
  | nil => simp at h
  | cons e rest ih =>
    obtain ⟨k, v⟩ := e
    by_cases hk : k = key
    · simp_all [get?]
    · simp only [get?, hk, if_false] at h
      exact List.mem_cons_of_mem _ (ih h)

theorem get?_of_mem {m : OrderedMap α β} (hnodup : m.keys.Nodup) {e : α × β} (he : e ∈ m) :
    m.get? e.1 = some e.2 := by
  induction m with
  | nil => cases he
  | cons first rest ih =>
    obtain ⟨k, v⟩ := first
    obtain ⟨hk, hrest⟩ := List.nodup_cons.1 hnodup
    rcases List.mem_cons.1 he with rfl | he
    · simp [get?]
    · have hne : k ≠ e.1 := fun h => hk (h ▸ List.mem_map.2 ⟨e, he, rfl⟩)
      rw [get?, if_neg hne]
      exact ih hrest he

theorem mem_insert {m : OrderedMap α β} {key : α} {value : β} {e : α × β}
    (h : e ∈ m.insert key value) : e ∈ m ∨ e = (key, value) := by
  induction m with
  | nil => exact .inr (List.mem_singleton.1 h)
  | cons first rest ih =>
    obtain ⟨k, v⟩ := first
    unfold insert at h
    split at h
    · next hk =>
      rcases List.mem_cons.1 h with rfl | h
      · exact .inr (hk ▸ rfl)
      · exact .inl (List.mem_cons_of_mem _ h)
    · rcases List.mem_cons.1 h with rfl | h
      · exact .inl List.mem_cons_self
      · exact (ih h).imp_left (List.mem_cons_of_mem _)

theorem mem_insertAll {m other : OrderedMap α β} {e : α × β} (h : e ∈ m.insertAll other) :
    e ∈ m ∨ e ∈ other := by
  induction other generalizing m with
  | nil => exact .inl h
  | cons first rest ih =>
    rcases ih (m := m.insert first.1 first.2) h with h | h
    · rcases mem_insert h with h | rfl
      · exact .inl h
      · exact .inr List.mem_cons_self
    · exact .inr (List.mem_cons_of_mem _ h)

theorem keys_insert (m : OrderedMap α β) (key : α) (value : β) :
    (m.insert key value).keys = if key ∈ m.keys then m.keys else m.keys ++ [key] := by
  induction m with
  | nil => simp [insert, keys]
  | cons e rest ih =>
    obtain ⟨k, v⟩ := e
    by_cases hk : k = key
    · simp [insert, keys, hk]
    · simp only [keys, List.map_cons] at ih ⊢
      have hne : key ≠ k := fun h => hk h.symm
      by_cases hm : key ∈ rest.map Prod.fst <;> simp [insert, hk, ih, hm, hne]

theorem nodup_keys_insert {m : OrderedMap α β} (h : m.keys.Nodup) (key : α) (value : β) :
    (m.insert key value).keys.Nodup := by
  rw [keys_insert]
  split
  · exact h
  · next hn =>
    refine List.nodup_append.2 ⟨h, by simp, ?_⟩
    intro a ha b hb hab
    simp only [List.mem_singleton] at hb
    exact hn (hb ▸ hab ▸ ha)

theorem mem_insertNew {m : OrderedMap α β} {key : α} {value : β} {e : α × β}
    (h : e ∈ m.insertNew key value) : e ∈ m ∨ e = (key, value) := by
  unfold insertNew at h
  split at h
  · exact .inl h
  · exact mem_insert h

theorem mem_alter_push {m : OrderedMap α (List β)} {key : α} {b : β} {e : α × List β}
    (h : e ∈ m.alter key [] (· ++ [b])) :
    e ∈ m ∨ e.1 = key ∧ ∀ x ∈ e.2, x = b ∨ ∃ old, (key, old) ∈ m ∧ x ∈ old := by
  rcases mem_insert h with h | rfl
  · exact .inl h
  · refine .inr ⟨rfl, fun x hx => ?_⟩
    rcases List.mem_append.1 hx with hx | hx
    · cases hold : m.get? key with
      | none => simp [hold] at hx
      | some old =>
        rw [hold] at hx
        exact .inr ⟨old, mem_of_get? hold, hx⟩
    · exact .inl (List.mem_singleton.1 hx)

theorem nodup_keys_insertNew {m : OrderedMap α β} (h : m.keys.Nodup) (key : α) (value : β) :
    (m.insertNew key value).keys.Nodup := by
  unfold insertNew
  split
  · exact h
  · exact nodup_keys_insert h key value

end OrderedMap

end ApiModel
