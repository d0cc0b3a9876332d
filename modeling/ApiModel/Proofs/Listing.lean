import ApiModel.OrderedMap
import ApiModel.OrderedSet
import Mathlib.Data.List.Induction

namespace ApiModel

namespace OrderedMap

variable {α β : Type} [DecidableEq α]

theorem get?_map_of_mem {s : List α} {f : α → β} {key : α} (h : key ∈ s) :
    get? (s.map fun k => (k, f k)) key = some (f key) := by
  induction s with
  | nil => cases h
  | cons k s ih =>
    by_cases hk : k = key
    · simp [get?, hk]
    · have hmem : key ∈ s := (List.mem_cons.1 h).resolve_left fun he => hk he.symm
      simp only [List.map_cons, get?, hk, if_false]
      exact ih hmem

theorem get?_map_of_not_mem {s : List α} {f : α → β} {key : α} (h : key ∉ s) :
    get? (s.map fun k => (k, f k)) key = none := by
  induction s with
  | nil => rfl
  | cons k s ih =>
    obtain ⟨hk, hs⟩ := not_or.1 (List.mem_cons.not.1 h)
    simp only [List.map_cons, get?, if_neg (Ne.symm hk)]
    exact ih hs

theorem insert_map (s : OrderedSet α) (hs : s.Nodup) (f g : α → β) (key : α)
    (hsame : ∀ k ∈ s, k ≠ key → g k = f k) :
    insert (s.map fun k => (k, f k)) key (g key) = (s.add key).map fun k => (k, g k) := by
  induction s with
  | nil => simp [insert, OrderedSet.add]
  | cons k s ih =>
    obtain ⟨hk, hnodup⟩ := List.nodup_cons.1 hs
    have ih := ih hnodup fun x hx => hsame x (List.mem_cons_of_mem _ hx)
    by_cases hkey : k = key
    · subst hkey
      have hrest : s.map (fun x => (x, f x)) = s.map fun x => (x, g x) :=
        List.map_congr_left fun x hx => by
          rw [hsame x (List.mem_cons_of_mem _ hx) fun he => hk (he ▸ hx)]
      simp [insert, OrderedSet.add, hrest]
    · have hadd : OrderedSet.add (k :: s) key = k :: OrderedSet.add s key := by
        unfold OrderedSet.add
        by_cases hmem : key ∈ s <;> simp [hmem, Ne.symm hkey]
      rw [hadd, List.map_cons, List.map_cons, insert, if_neg hkey, ih,
        hsame k List.mem_cons_self hkey]

end OrderedMap

section

variable {α β γ : Type} [DecidableEq α]

def listedUnder (entries : List (α × β)) (key : α) : List β :=
  entries.filterMap fun e => if e.1 = key then some e.2 else none

def OrderedMap.pushAll (m : OrderedMap α (List β)) (entries : List (α × β)) :
    OrderedMap α (List β) := entries.foldl (fun m e => m.alter e.1 [] (· ++ [e.2])) m

theorem listedUnder_append (entries rest : List (α × β)) (key : α) :
    listedUnder (entries ++ rest) key = listedUnder entries key ++ listedUnder rest key :=
  List.filterMap_append

theorem listedUnder_eq_nil {entries : List (α × β)} {key : α} :
    listedUnder entries key = [] ↔ key ∉ entries.map Prod.fst := by
  simp only [listedUnder, List.filterMap_eq_nil_iff, ite_eq_right_iff, reduceCtorEq, imp_false,
    List.mem_map, not_exists, not_and]

theorem listedUnder_map (keys : List α) (value : β) (key : α) :
    listedUnder (keys.map fun k => (k, value)) key = List.replicate (keys.count key) value := by
  induction keys with
  | nil => rfl
  | cons k keys ih =>
    by_cases hk : k = key
    · subst hk
      rw [List.count_cons_self, List.replicate_succ, ← ih]
      simp [listedUnder]
    · rw [List.count_cons_of_ne hk, ← ih]
      simp [listedUnder, hk]

theorem listedUnder_flatMap (keys : γ → List α) (value : γ → β) (listing : List γ) (key : α) :
    listedUnder (listing.flatMap fun e => (keys e).map fun k => (k, value e)) key =
      listing.flatMap fun e => List.replicate ((keys e).count key) (value e) := by
  induction listing with
  | nil => rfl
  | cons e listing ih =>
    rw [List.flatMap_cons, listedUnder_append, listedUnder_map, ih, List.flatMap_cons]

theorem flatMap_replicate_count {keys : γ → List α} {listing : List γ}
    (h : ∀ e ∈ listing, (keys e).Nodup) (value : γ → β) (key : α) :
    (listing.flatMap fun e => List.replicate ((keys e).count key) (value e)) =
      (listing.filter fun e => decide (key ∈ keys e)).map value := by
  induction listing with
  | nil => rfl
  | cons e listing ih =>
    have hrest := ih fun x hx => h x (List.mem_cons_of_mem _ hx)
    have hcount := (h e List.mem_cons_self).count (a := key)
    by_cases hmem : key ∈ keys e <;> simp [hcount, hmem, hrest]

theorem count_flatMap_replicate {listing : List γ} {value : γ → β} [DecidableEq β]
    (h : (listing.map value).Nodup) (times : γ → Nat) {e : γ} (he : e ∈ listing) :
    (listing.flatMap fun x => List.replicate (times x) (value x)).count (value e) = times e := by
  induction listing with
  | nil => cases he
  | cons x listing ih =>
    obtain ⟨hx, hnodup⟩ := List.nodup_cons.1 h
    rw [List.flatMap_cons, List.count_append, List.count_replicate]
    rcases List.mem_cons.1 he with rfl | he
    · have hrest : (listing.flatMap fun x => List.replicate (times x) (value x)).count
          (value e) = 0 := by
        rw [List.count_eq_zero]
        intro hmem
        obtain ⟨y, hy, hvalue⟩ := List.mem_flatMap.1 hmem
        exact hx (List.mem_map.2 ⟨y, hy, (List.eq_of_mem_replicate hvalue).symm⟩)
      rw [hrest, if_pos (beq_self_eq_true _), Nat.add_zero]
    · have hne : value x ≠ value e := fun heq => hx (heq ▸ List.mem_map.2 ⟨e, he, rfl⟩)
      rw [ih hnodup he, if_neg (by simpa using hne), Nat.zero_add]

theorem ofList_append (keys : List α) (key : α) :
    OrderedSet.ofList (keys ++ [key]) = (OrderedSet.ofList keys).add key := by
  rw [OrderedSet.ofList, OrderedSet.addAll, List.foldl_append]
  rfl

namespace OrderedMap

theorem pushAll_append (m : OrderedMap α (List β)) (entries more : List (α × β)) :
    m.pushAll (entries ++ more) = (m.pushAll entries).pushAll more := List.foldl_append

theorem getD_listed (entries : List (α × β)) (key : α) :
    (get? ((OrderedSet.ofList (entries.map Prod.fst)).map fun k => (k, listedUnder entries k))
      key).getD [] = listedUnder entries key := by
  by_cases hmem : key ∈ OrderedSet.ofList (entries.map Prod.fst)
  · rw [get?_map_of_mem hmem, Option.getD_some]
  · rw [get?_map_of_not_mem hmem, Option.getD_none]
    exact (listedUnder_eq_nil.2 fun h => hmem (OrderedSet.mem_ofList.2 h)).symm

theorem alter_listed (done : List (α × β)) (e : α × β) :
    alter ((OrderedSet.ofList (done.map Prod.fst)).map fun k => (k, listedUnder done k))
        e.1 [] (· ++ [e.2]) =
      (OrderedSet.ofList ((done ++ [e]).map Prod.fst)).map
        fun k => (k, listedUnder (done ++ [e]) k) := by
  have hown : listedUnder [e] e.1 = [e.2] := by simp [listedUnder]
  have hother : ∀ k, k ≠ e.1 → listedUnder [e] k = [] := fun k hk =>
    listedUnder_eq_nil.2 (by simpa using hk)
  rw [alter, getD_listed, List.map_append, List.map_singleton, ofList_append,
    show listedUnder done e.1 ++ [e.2] = listedUnder (done ++ [e]) e.1 by
      rw [listedUnder_append, hown]]
  refine insert_map _ (OrderedSet.nodup_ofList _) _ _ _ fun k _ hk => ?_
  rw [listedUnder_append, hother k hk, List.append_nil]

theorem pushAll_nil (entries : List (α × β)) :
    pushAll [] entries = (OrderedSet.ofList (entries.map Prod.fst)).map
      fun k => (k, listedUnder entries k) := by
  induction entries using List.reverseRecOn with
  | nil => rfl
  | append_singleton done e ih =>
    rw [pushAll_append, ih]
    exact alter_listed done e

theorem keys_pushAll (entries : List (α × β)) :
    (pushAll [] entries).keys = OrderedSet.ofList (entries.map Prod.fst) := by
  rw [pushAll_nil, keys, List.map_map]
  exact List.map_id _

theorem getD_pushAll (entries : List (α × β)) (key : α) :
    ((pushAll [] entries).get? key).getD [] = listedUnder entries key := by
  rw [pushAll_nil, getD_listed]

end OrderedMap

end

end ApiModel
