import ApiModel.Error
import Mathlib.Data.List.Forall2

namespace ApiModel

section

variable {ε α β γ : Type}

theorem exists_of_mem_right {R : α → β → Prop} {l : List α} {u : List β}
    (h : List.Forall₂ R l u) {b : β} (hb : b ∈ u) : ∃ a ∈ l, R a b := by
  induction h with
  | nil => cases hb
  | cons hr _ ih =>
    rcases List.mem_cons.1 hb with rfl | hb
    · exact ⟨_, List.mem_cons_self, hr⟩
    · obtain ⟨a, ha, hr⟩ := ih hb
      exact ⟨a, List.mem_cons_of_mem _ ha, hr⟩

theorem ok_of_any {x : Except ε α} {p : α → Bool} (h : x.toOption.any p = true) :
    ∃ a, x = .ok a ∧ p a = true := by
  cases x with
  | ok a => exact ⟨a, rfl, h⟩
  | error e => cases h

theorem quiet_of_any {x : Except ε (α × List β)} {p : α × List β → Bool}
    (h : (x.toOption.any fun y => y.2.isEmpty && p y) = true) :
    ∃ a, x = .ok (a, []) ∧ p (a, []) = true := by
  obtain ⟨⟨a, complaints⟩, hx, hboth⟩ := ok_of_any h
  obtain ⟨hnone, hp⟩ := Bool.and_eq_true_iff.1 hboth
  obtain rfl : complaints = [] := List.isEmpty_iff.1 hnone
  exact ⟨a, hx, hp⟩

theorem ok_of_map {x : Except ε α} {f : α → β} {b : β} (h : x.map f = .ok b) :
    ∃ a, x = .ok a ∧ f a = b := by
  cases x with
  | ok a =>
    cases h
    exact ⟨a, rfl, rfl⟩
  | error e => cases h

theorem ok_of_bind {x : Except ε α} {f : α → Except ε β} {b : β} (h : x >>= f = .ok b) :
    ∃ a, x = .ok a ∧ f a = .ok b := by
  cases x with
  | ok a => exact ⟨a, rfl, h⟩
  | error e => cases h

theorem bind_pure_error_iff {x : Except ε α} {f : α → β} {e : ε} :
    (x >>= fun a => (pure (f a) : Except ε β)) = .error e ↔ x = .error e := by
  cases x with
  | ok a => constructor <;> intro h <;> cases h
  | error e' =>
    constructor
    · intro h
      cases h
      rfl
    · intro h
      cases h
      rfl

theorem ok_of_foldlM {f : β → α → Except ε β} {l : List α} {b b' : β}
    (h : l.foldlM f b = .ok b') : ∀ a ∈ l, ∃ c c', f c a = .ok c' := by
  induction l generalizing b with
  | nil => exact fun a ha => nomatch ha
  | cons first rest ih =>
    rw [List.foldlM_cons] at h
    obtain ⟨c, hc, hrest⟩ := ok_of_bind h
    exact List.forall_mem_cons.2 ⟨⟨b, c, hc⟩, ih hrest⟩

theorem mapM_ok_iff {f : α → Except ε β} {l : List α} {bs : List β} :
    l.mapM f = .ok bs ↔ List.Forall₂ (fun a b => f a = .ok b) l bs := by
  constructor
  · intro h
    induction l generalizing bs with
    | nil =>
      cases h
      exact .nil
    | cons a l ih =>
      rw [List.mapM_cons] at h
      obtain ⟨b, hb, h⟩ := ok_of_bind h
      obtain ⟨rest, hrest, h⟩ := ok_of_bind h
      cases h
      exact .cons hb (ih hrest)
  · intro h
    induction h with
    | nil => rfl
    | cons hb _ ih =>
      rw [List.mapM_cons, hb, ih]
      rfl

theorem mapM_error_iff {f : α → Except ε β} {l : List α} {e : ε} :
    l.mapM f = .error e ↔ ∃ before a after, l = before ++ a :: after ∧
      (∀ x ∈ before, ∃ b, f x = .ok b) ∧ f a = .error e := by
  constructor
  · intro h
    induction l with
    | nil => cases h
    | cons a l ih =>
      rw [List.mapM_cons] at h
      cases ha : f a with
      | error e' =>
        rw [ha] at h
        cases h
        exact ⟨[], a, l, rfl, by simp, ha⟩
      | ok b =>
        have hrest : l.mapM f = .error e := by
          cases hrest : l.mapM f with
          | error e' =>
            rw [ha, hrest] at h
            exact h
          | ok bs =>
            rw [ha, hrest] at h
            cases h
        obtain ⟨before, x, after, rfl, hbefore, hx⟩ := ih hrest
        exact ⟨a :: before, x, after, rfl, List.forall_mem_cons.2 ⟨⟨b, ha⟩, hbefore⟩, hx⟩
  · rintro ⟨before, a, after, rfl, hbefore, ha⟩
    induction before with
    | nil =>
      rw [List.nil_append, List.mapM_cons, ha]
      rfl
    | cons x before ih =>
      obtain ⟨⟨b, hx⟩, hbefore⟩ := List.forall_mem_cons.1 hbefore
      rw [List.cons_append, List.mapM_cons, hx, ih hbefore]
      rfl

def Meets (x : Except ε α) (good : α → Prop) (bad : ε → Prop) : Prop :=
  match x with
  | .ok a => good a
  | .error e => bad e

namespace Meets

variable {good : α → Prop} {bad : ε → Prop}

@[simp] theorem ok_iff {a : α} : Meets (.ok a : Except ε α) good bad ↔ good a := Iff.rfl

@[simp] theorem error_iff {e : ε} : Meets (.error e : Except ε α) good bad ↔ bad e := Iff.rfl

@[simp] theorem pure_iff {a : α} : Meets (pure a : Except ε α) good bad ↔ good a := Iff.rfl

theorem of_ok {x : Except ε α} {a : α} (h : Meets x good bad) (hx : x = .ok a) : good a := by
  subst hx
  exact h

theorem of_error {x : Except ε α} {e : ε} (h : Meets x good bad) (hx : x = .error e) : bad e := by
  subst hx
  exact h

theorem exists_ok {x : Except ε α} (h : Meets x good fun _ => False) :
    ∃ a, x = .ok a ∧ good a := by
  cases x with
  | ok a => exact ⟨a, rfl, h⟩
  | error e => exact h.elim

theorem mono {x : Except ε α} {good' : α → Prop} {bad' : ε → Prop} (h : Meets x good bad)
    (hgood : ∀ a, good a → good' a) (hbad : ∀ e, bad e → bad' e) : Meets x good' bad' := by
  cases x with
  | ok a => exact hgood a h
  | error e => exact hbad e h

theorem weaken {x : Except ε α} {good' : α → Prop} (h : Meets x good bad)
    (hgood : ∀ a, good a → good' a) : Meets x good' bad := h.mono hgood fun _ he => he

theorem and {x : Except ε α} {good' : α → Prop} {bad' : ε → Prop} (h : Meets x good bad)
    (h' : Meets x good' bad') : Meets x (fun a => good a ∧ good' a) bad := by
  cases x with
  | ok a => exact ⟨h, h'⟩
  | error e => exact h

theorem bind {x : Except ε α} {f : α → Except ε β} {good' : β → Prop} (h : Meets x good bad)
    (hf : ∀ a, x = .ok a → good a → Meets (f a) good' bad) : Meets (x >>= f) good' bad := by
  cases x with
  | ok a => exact hf a rfl h
  | error e => exact h

theorem map {x : Except ε α} {f : α → β} {good' : β → Prop}
    (h : Meets x (fun a => good' (f a)) bad) : Meets (x.map f) good' bad := by
  cases x with
  | ok a => exact h
  | error e => exact h

theorem foldlM {f : β → α → Except ε β} {l : List α} {b : β} (inv : List α → β → Prop)
    (first : inv [] b)
    (step : ∀ done a rest b, l = done ++ a :: rest → inv done b →
      Meets (f b a) (inv (done ++ [a])) bad) : Meets (l.foldlM f b) (inv l) bad := by
  suffices h : ∀ rest done b, l = done ++ rest → inv done b →
      Meets (rest.foldlM f b) (inv l) bad from h l [] b rfl first
  intro rest
  induction rest with
  | nil =>
    intro done b hl hb
    rw [List.append_nil] at hl
    exact hl ▸ hb
  | cons a rest ih =>
    intro done b hl hb
    rw [List.foldlM_cons]
    refine (step done a rest b hl hb).bind fun b' _ hb' => ?_
    exact ih (done ++ [a]) b' (by rw [hl]; simp) hb'

theorem mapM {f : α → Except ε β} {l : List α} {good : α → β → Prop}
    (h : ∀ a ∈ l, Meets (f a) (good a) bad) : Meets (l.mapM f) (List.Forall₂ good l) bad := by
  induction l with
  | nil => exact .nil
  | cons a l ih =>
    rw [List.mapM_cons]
    refine (h a List.mem_cons_self).bind fun b _ hb => ?_
    refine (ih fun a ha => h a (List.mem_cons_of_mem _ ha)).bind fun bs _ hbs => ?_
    exact .cons hb hbs

theorem mapM_all (good : β → Prop) {f : α → Except ε β} {l : List α}
    (h : ∀ a ∈ l, Meets (f a) good bad) : Meets (l.mapM f) (fun bs => ∀ b ∈ bs, good b) bad := by
  have hall : Meets (l.mapM f) (List.Forall₂ (fun _ => good) l) bad := mapM h
  refine hall.weaken fun bs hbs b hb => ?_
  obtain ⟨_, _, hgood⟩ := exists_of_mem_right hbs hb
  exact hgood

end Meets

end

namespace ConversionError

/-- Errors that a document can be blamed for once it is loaded. -/
def Expected : ConversionError → Prop
  | .unresolved _ _ | .unsupported _ _ | .duplicateTag _ _ => True
  | .malformed _ | .broken _ => False

end ConversionError

end ApiModel
