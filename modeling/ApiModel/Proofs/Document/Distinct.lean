import ApiModel.Document.Load
import Mathlib.Data.List.Nodup

namespace ApiModel

namespace OrderedMap

variable {α β : Type} [DecidableEq α]

theorem nodup_keys_insertAll {m : OrderedMap α β} (h : m.keys.Nodup) (entries : List (α × β)) :
    (m.insertAll entries).keys.Nodup := by
  induction entries generalizing m with
  | nil => exact h
  | cons e entries ih => exact ih (nodup_keys_insert h e.1 e.2)

theorem nodup_keys_ofList (entries : List (α × β)) : (ofList entries).keys.Nodup :=
  nodup_keys_insertAll (by simp [keys]) entries

theorem mem_keys_insertAll {m other : OrderedMap α β} {key : α} :
    key ∈ (m.insertAll other).keys ↔ key ∈ m.keys ∨ key ∈ other.keys := by
  induction other generalizing m with
  | nil => simp [insertAll, keys]
  | cons e rest ih =>
    have hinsert : key ∈ (m.insert e.1 e.2).keys ↔ key ∈ m.keys ∨ key = e.1 := by
      rw [keys_insert]
      split
      · next he => exact ⟨.inl, fun h => h.elim id fun hkey => hkey ▸ he⟩
      · simp
    have hrest := ih (m := m.insert e.1 e.2)
    simp only [insertAll, List.foldl_cons, keys, List.map_cons, List.mem_cons] at hrest hinsert ⊢
    rw [hrest, hinsert, or_assoc]

theorem get?_insertAll_of_not_mem {m other : OrderedMap α β} {key : α} (h : key ∉ other.keys) :
    (m.insertAll other).get? key = m.get? key := by
  induction other generalizing m with
  | nil => rfl
  | cons e rest ih =>
    obtain ⟨hkey, hrest⟩ := not_or.1 (List.mem_cons.not.1 h)
    exact (ih hrest).trans (get?_insert_of_ne m e.2 hkey)

theorem get?_insertAll_of_mem {m other : OrderedMap α β} (h : other.keys.Nodup) {e : α × β}
    (he : e ∈ other) : (m.insertAll other).get? e.1 = some e.2 := by
  induction other generalizing m with
  | nil => cases he
  | cons first rest ih =>
    obtain ⟨hfirst, hrest⟩ := List.nodup_cons.1 h
    rcases List.mem_cons.1 he with rfl | he
    · exact (get?_insertAll_of_not_mem hfirst).trans (get?_insert_self m e.1 e.2)
    · exact ih hrest he

theorem mem_ofList {entries : List (α × β)} {e : α × β} (h : e ∈ ofList entries) : e ∈ entries :=
  (mem_insertAll h).resolve_left List.not_mem_nil

theorem get?_eq_none_iff {m : OrderedMap α β} {key : α} : m.get? key = none ↔ key ∉ m.keys := by
  induction m with
  | nil => simp [keys]
  | cons e m ih =>
    obtain ⟨k, v⟩ := e
    by_cases hk : k = key
    · simp [get?, keys, hk]
    · have hk' : key ≠ k := fun h => hk h.symm
      simpa [get?, keys, hk, hk'] using ih

theorem get?_eq_some_iff {m : OrderedMap α β} (h : m.keys.Nodup) {key : α} {value : β} :
    m.get? key = some value ↔ (key, value) ∈ m :=
  ⟨mem_of_get?, fun he => get?_of_mem h he⟩

theorem swapErase_perm {m : OrderedMap α β} {key : α} {value : β}
    (h : m.get? key = some value) : ((key, value) :: m.swapErase key).Perm m := by
  induction m with
  | nil => cases h
  | cons e rest ih =>
    obtain ⟨k, v⟩ := e
    by_cases hk : k = key
    · subst hk
      obtain rfl : v = value := by simpa [get?] using h
      rw [swapErase, if_pos rfl]
      refine .cons _ ?_
      cases hlast : rest.getLast? with
      | none => rw [List.getLast?_eq_none_iff.1 hlast]
      | some last =>
        obtain ⟨init, rfl⟩ := List.getLast?_eq_some_iff.1 hlast
        rw [List.dropLast_concat]
        exact (List.perm_append_singleton last init).symm
    · rw [get?, if_neg hk] at h
      rw [swapErase, if_neg hk]
      exact (List.Perm.swap _ _ _).trans ((ih h).cons _)

omit [DecidableEq α] in
theorem nodup_keys_of_perm {m m' : OrderedMap α β} (h : m.Perm m') (hm : m'.keys.Nodup) :
    m.keys.Nodup :=
  (h.map Prod.fst).nodup_iff.2 hm

theorem get?_of_perm {m m' : OrderedMap α β} (h : m.Perm m') (hm : m'.keys.Nodup) (key : α) :
    m.get? key = m'.get? key := by
  refine Option.ext fun value => ?_
  rw [get?_eq_some_iff (nodup_keys_of_perm h hm), get?_eq_some_iff hm, h.mem_iff]

theorem swapErase_of_get?_eq_none {m : OrderedMap α β} {key : α} (h : m.get? key = none) :
    m.swapErase key = m := by
  induction m with
  | nil => rfl
  | cons e rest ih =>
    obtain ⟨k, v⟩ := e
    by_cases hk : k = key
    · simp [get?, hk] at h
    · rw [get?, if_neg hk] at h
      rw [swapErase, if_neg hk, ih h]

theorem nodup_keys_swapErase {m : OrderedMap α β} (h : m.keys.Nodup) (key : α) :
    (m.swapErase key).keys.Nodup := by
  cases hget : m.get? key with
  | none => rwa [swapErase_of_get?_eq_none hget]
  | some value => exact (List.nodup_cons.1 (nodup_keys_of_perm (swapErase_perm hget) h)).2

theorem get?_swapErase_self {m : OrderedMap α β} (h : m.keys.Nodup) (key : α) :
    (m.swapErase key).get? key = none := by
  cases hget : m.get? key with
  | none => rw [swapErase_of_get?_eq_none hget, hget]
  | some value =>
    have hnodup := nodup_keys_of_perm (swapErase_perm hget) h
    exact get?_eq_none_iff.2 (List.nodup_cons.1 hnodup).1

theorem get?_swapErase_of_ne {m : OrderedMap α β} {key other : α} (h : m.keys.Nodup)
    (hne : other ≠ key) : (m.swapErase key).get? other = m.get? other := by
  cases hget : m.get? key with
  | none => rw [swapErase_of_get?_eq_none hget]
  | some value => rw [← get?_of_perm (swapErase_perm hget) h, get?, if_neg hne.symm]

theorem take_spec {m : OrderedMap α β} (hm : m.keys.Nodup) (key : α) :
    (m.take key).1 = m.get? key ∧ (m.take key).2.keys.Nodup ∧
      ∀ other, other ≠ key → (m.take key).2.get? other = m.get? other := by
  unfold take
  cases hkey : m.get? key with
  | none => exact ⟨rfl, hm, fun _ _ => rfl⟩
  | some value =>
    exact ⟨rfl, nodup_keys_swapErase hm key, fun other hne => get?_swapErase_of_ne hm hne⟩

end OrderedMap

namespace Json

inductive Distinct : Json → Prop
  | null : Distinct .null
  | bool (b : Bool) : Distinct (.bool b)
  | number (n : Number) : Distinct (.number n)
  | string (s : String) : Distinct (.string s)
  | array {items : List Json} : (∀ j ∈ items, Distinct j) → Distinct (.array items)
  | object {entries : List (String × Json)} :
      (OrderedMap.keys entries).Nodup → (∀ e ∈ entries, Distinct e.2) → Distinct (.object entries)

def entriesOf (j : Option Json) : OrderedMap String Json := (j.bind entries?).getD []

theorem Distinct.entriesOf {j : Option Json} (h : ∀ v, j = some v → v.Distinct) :
    (entriesOf j).keys.Nodup ∧ ∀ e ∈ Json.entriesOf j, e.2.Distinct := by
  cases j with
  | none => exact ⟨by simp [Json.entriesOf, OrderedMap.keys], by simp [Json.entriesOf]⟩
  | some v =>
    cases h v rfl with
    | object hkeys hvalues => exact ⟨hkeys, hvalues⟩
    | _ => exact ⟨by simp [Json.entriesOf, entries?, OrderedMap.keys],
        by simp [Json.entriesOf, entries?]⟩

theorem Distinct.get? {entries : OrderedMap String Json} (h : (Json.object entries).Distinct)
    {key : String} {v : Json} (hv : OrderedMap.get? entries key = some v) : v.Distinct := by
  cases h with
  | object _ hvalues => exact hvalues _ (OrderedMap.mem_of_get? hv)

end Json

theorem Decoder.readEntries_field {σ α : Type} {fields : List (Field σ)} (get : σ → α)
    (key : String) (value : Decoder α)
    (own : ∀ field, fields.find? (·.key == key) = some field → ∀ j s s', field.read j s = .ok s' →
      value j = .ok (get s'))
    (others : ∀ field ∈ fields, field.key ≠ key → ∀ j s s', field.read j s = .ok s' →
      get s' = get s)
    (known : fields.find? (·.key == key) ≠ none)
    {entries : OrderedMap String Json} (hentries : entries.keys.Nodup) {s s' : σ}
    (h : readEntries fields entries s = .ok s') :
    match entries.get? key with
    | some j => value j = .ok (get s')
    | none => get s' = get s := by
  induction entries generalizing s with
  | nil =>
    cases h
    rfl
  | cons e rest ih =>
    obtain ⟨k, j⟩ := e
    obtain ⟨hk, hrest⟩ := List.nodup_cons.1 hentries
    rw [readEntries] at h
    cases hfield : fields.find? (·.key == k) with
    | none =>
      rw [hfield] at h
      have hne : k ≠ key := fun he => known (he ▸ hfield)
      rw [OrderedMap.get?, if_neg hne]
      exact ih hrest h
    | some field =>
      rw [hfield] at h
      change (field.read j s >>= readEntries fields rest) = .ok s' at h
      cases hread : field.read j s with
      | error e =>
        rw [hread] at h
        cases h
      | ok s₁ =>
        rw [hread] at h
        have ih := ih hrest h
        by_cases hkey : k = key
        · subst hkey
          rw [OrderedMap.get?_eq_none_iff.2 hk] at ih
          rw [OrderedMap.get?, if_pos rfl]
          change get s' = get s₁ at ih
          rw [ih]
          exact own field hfield j s s₁ hread
        · have hother : get s₁ = get s :=
            others field (List.mem_of_find?_eq_some hfield) (fun he => hkey (by
              have := List.find?_some hfield
              rw [beq_iff_eq] at this
              rw [← this, he])) j s s₁ hread
          rw [OrderedMap.get?, if_neg hkey]
          rwa [hother] at ih

theorem Decoder.readEntries_of_record {σ : Type} {name : String} {fields : List (Field σ)}
    {blank s : σ} {entries : OrderedMap String Json}
    (h : record name fields blank (.object entries) = .ok s) :
    readEntries fields entries blank = .ok s := by
  simp only [record] at h
  cases hs : readEntries fields entries blank with
  | error e =>
    simp only [hs, bind, Except.bind] at h
    cases h
  | ok s' =>
    simp only [hs, bind, Except.bind] at h
    split at h
    · cases h
    · exact h

namespace Yaml

def Expansion.Gives {α : Type} (x : Node.Expansion α) (P : α → Prop) : Prop :=
  ∀ s a s', x.run s = some (a, s') → P a

namespace Expansion.Gives

variable {α β : Type} {P : α → Prop} {Q : β → Prop}

theorem pure {a : α} (h : P a) : Gives (Pure.pure a) P := by
  intro s b s' hb
  cases hb
  exact h

theorem fail : Gives (Alternative.failure : Node.Expansion α) P := by
  intro s a s' h
  cases h

theorem bind {x : Node.Expansion α} {f : α → Node.Expansion β} (h : Gives x P)
    (hf : ∀ a, P a → Gives (f a) Q) : Gives (x >>= f) Q := by
  intro s b s' hb
  obtain ⟨⟨a, s₁⟩, ha, hb⟩ := Option.bind_eq_some_iff.1 hb
  exact hf a (h s a s₁ ha) s₁ b s' hb

theorem mapM {f : α → Node.Expansion β} {l : List α} (h : ∀ a ∈ l, Gives (f a) Q) :
    Gives (l.mapM f) fun bs => ∀ b ∈ bs, Q b := by
  induction l with
  | nil => exact pure (by simp)
  | cons a l ih =>
    rw [List.mapM_cons]
    refine (h a List.mem_cons_self).bind fun b hb => ?_
    refine (ih fun a ha => h a (List.mem_cons_of_mem _ ha)).bind fun bs hbs => ?_
    exact pure (List.forall_mem_cons.2 ⟨hb, hbs⟩)

theorem anything (x : Node.Expansion α) : Gives x fun _ => True := fun _ _ _ _ => trivial

end Expansion.Gives

theorem real?_distinct {text : String} {j : Json} (h : real? text = some j) : j.Distinct := by
  unfold real? at h
  split at h
  · cases h
    exact .null
  · obtain ⟨x, _, rfl⟩ := Option.map_eq_some_iff.1 h
    exact .number _

theorem plainValue?_distinct {text : String} {j : Json} (h : plainValue? text = some j) :
    j.Distinct := by
  have hreal : ((real? text).getD (.string text)).Distinct := by
    cases hr : real? text with
    | none => exact .string _
    | some v => exact real?_distinct hr
  unfold plainValue? at h
  split at h
  · cases h
    exact .null
  · split at h
    · cases h
      exact .bool _
    · have hother : (if isZeroPadded text.toList then Json.string text
          else (real? text).getD (.string text)).Distinct := by
        split
        · exact .string _
        · exact hreal
      simp only at h
      generalize (if isZeroPadded text.toList then Json.string text
        else (real? text).getD (.string text)) = other at h hother
      split at h
      · cases h
        exact .number _
      · cases h
      · cases h
        exact hother

theorem scalarValue?_distinct {tag : Option String} {plain : Bool} {text : String} {j : Json}
    (h : scalarValue? tag plain text = some j) : j.Distinct := by
  unfold scalarValue? at h
  split at h
  · split at h
    · exact plainValue?_distinct h
    · cases h
      exact .string _
  · split at h
    · cases h
    · split at h
      · obtain ⟨b, _, rfl⟩ := Option.map_eq_some_iff.1 h
        exact .bool b
      · split at h
        · split at h
          · cases h
            exact .number _
          · cases h
        · split at h
          · exact real?_distinct h
          · split at h
            · split at h
              · cases h
                exact .null
              · cases h
            · cases h
              exact .string _

theorem value_distinct (anchors : Anchors) (depth : Nat) (node : Node) :
    Expansion.Gives (node.value anchors depth) Json.Distinct := by
  induction depth using Nat.strongRecOn generalizing node with
  | ind depth ih =>
    unfold Node.value
    refine (Expansion.Gives.anything _).bind fun target _ => ?_
    split
    · split
      · next hscalar => exact .pure (scalarValue?_distinct hscalar)
      · exact .fail
    · exact .fail
    · split
      · exact .fail
      · split
        · exact .fail
        · next depth =>
          refine (Expansion.Gives.mapM fun item _ => ih depth (Nat.lt_succ_self _) item).bind
            fun items hitems => ?_
          exact .pure (.array hitems)
    · split
      · exact .fail
      · split
        · exact .fail
        · next depth =>
          have hentry : ∀ e : Node × Node, Expansion.Gives (do
              let key ← Node.keyText anchors e.1
              return (key, ← Node.value anchors depth e.2))
                fun e : String × Json => e.2.Distinct := fun e =>
            (Expansion.Gives.anything _).bind fun key _ =>
              (ih depth (Nat.lt_succ_self _) e.2).bind fun j hj => .pure hj
          refine (Expansion.Gives.mapM fun e _ => hentry e).bind fun entries hentries => ?_
          exact .pure (.object (OrderedMap.nodup_keys_ofList entries)
            fun e he => hentries e (OrderedMap.mem_ofList he))

theorem parse?_distinct {text : String} {j : Json} (h : parse? text = some j) : j.Distinct := by
  unfold parse? at h
  obtain ⟨⟨root, anchors⟩, _, h⟩ := Option.bind_eq_some_iff.1 h
  cases root with
  | none =>
    cases h
    exact .null
  | some root =>
    obtain ⟨⟨value, left⟩, hvalue, h⟩ := Option.bind_eq_some_iff.1 h
    cases h
    exact value_distinct anchors depthLimit root _ _ _ hvalue

end Yaml

theorem Document.root?_distinct {text : String} {root : OrderedMap String Json}
    (h : Document.root? text = .ok root) : (Json.object root).Distinct := by
  unfold Document.root? at h
  split at h
  · cases h
  · next hparse =>
    cases h
    exact Yaml.parse?_distinct hparse
  · cases h

end ApiModel
