import ApiModel.Proofs.Outcome

namespace ApiModel

variable {ε α β γ δ : Type}

def Simulates (R : α → β → Prop) (x : Except ε α) (y : Except ε β) : Prop :=
  ∀ a, x = .ok a → ∃ b, y = .ok b ∧ R a b

namespace Simulates

variable {R : α → β → Prop} {S : γ → δ → Prop} {x : Except ε α} {y : Except ε β}

theorem ok {a : α} {b : β} (h : R a b) : Simulates R (.ok a : Except ε α) (.ok b : Except ε β) := by
  rintro a' ha
  cases ha
  exact ⟨b, rfl, h⟩

theorem of_eq {x y : Except ε α} (h : y = x) : Simulates Eq x y :=
  fun a ha => ⟨a, h.trans ha, rfl⟩

theorem refl (x : Except ε α) : Simulates Eq x x := of_eq rfl

theorem error (e : ε) : Simulates R (.error e) y := fun a ha => by cases ha

theorem bind {f : α → Except ε γ} {g : β → Except ε δ} (h : Simulates R x y)
    (hf : ∀ a b, x = .ok a → R a b → Simulates S (f a) (g b)) :
    Simulates S (x >>= f) (y >>= g) := by
  cases x with
  | error e => exact error e
  | ok a =>
    obtain ⟨b, rfl, hab⟩ := h a rfl
    exact hf a b rfl hab

theorem bind_same {x y : Except ε α} {f : α → Except ε γ} {g : α → Except ε δ}
    (h : Simulates Eq x y) (hf : ∀ a, Simulates S (f a) (g a)) :
    Simulates S (x >>= f) (y >>= g) :=
  h.bind fun a _ _ heq => heq ▸ hf a

theorem map {f : α → γ} {g : β → δ} (h : Simulates R x y) (hf : ∀ a b, R a b → S (f a) (g b)) :
    Simulates S (x.map f) (y.map g) := by
  cases x with
  | error e => exact error e
  | ok a =>
    obtain ⟨b, rfl, hab⟩ := h a rfl
    exact ok (hf a b hab)

theorem map_same {x y : Except ε α} (h : Simulates Eq x y) (f : α → γ) :
    Simulates Eq (x.map f) (y.map f) :=
  h.map fun _ _ heq => congrArg f heq

theorem foldlM {f : α → γ → Except ε α} {g : β → γ → Except ε β} {l : List γ} {a : α} {b : β}
    (first : R a b) (step : ∀ c ∈ l, ∀ a b, R a b → Simulates R (f a c) (g b c)) :
    Simulates R (l.foldlM f a) (l.foldlM g b) := by
  induction l generalizing a b with
  | nil => exact ok first
  | cons c l ih =>
    rw [List.foldlM_cons, List.foldlM_cons]
    refine (step c List.mem_cons_self a b first).bind fun a' b' _ hab => ?_
    exact ih hab fun c' hc' => step c' (List.mem_cons_of_mem _ hc')

theorem mapM {P : α → β → Prop} {f : α → Except ε γ} {g : β → Except ε γ} {l : List α}
    {l' : List β} (hl : List.Forall₂ P l l')
    (step : ∀ a b, a ∈ l → P a b → Simulates Eq (f a) (g b)) :
    Simulates Eq (l.mapM f) (l'.mapM g) := by
  induction hl with
  | nil => exact of_eq rfl
  | cons hab _ ih =>
    rw [List.mapM_cons, List.mapM_cons]
    refine (step _ _ List.mem_cons_self hab).bind fun c c' _ hc => ?_
    refine (ih fun a b ha => step a b (List.mem_cons_of_mem _ ha)).bind fun cs cs' _ hcs => ?_
    rw [hc, hcs]
    exact of_eq rfl

theorem mapM_same {f g : α → Except ε γ} {l : List α} (step : ∀ a ∈ l, Simulates Eq (f a) (g a)) :
    Simulates Eq (l.mapM f) (l.mapM g) := by
  refine mapM (P := Eq) (List.forall₂_same.2 fun _ _ => rfl) fun a b ha hab => ?_
  rw [← hab]
  exact step a ha

end Simulates

/-- Both runs end alike, if not the first one in a failure of another kind. -/
def Agrees (bad : ε → Prop) (x y : Except ε α) : Prop :=
  Meets x (fun a => y = .ok a) fun e => bad e → y = .error e

namespace Agrees

variable {bad : ε → Prop} {x y : Except ε α}

theorem of_eq (h : y = x) : Agrees bad x y := by
  subst h
  cases y with
  | ok a => rfl
  | error e => exact fun _ => rfl

theorem eq (h : Agrees (fun _ => True) x y) : y = x := by
  cases x with
  | ok a => exact h
  | error e => exact h trivial

theorem simulates (h : Agrees bad x y) : Simulates Eq x y := by
  rintro a rfl
  exact ⟨a, h, rfl⟩

end Agrees

/-- Some more elements, each of a kind, stand anywhere among those of a list. -/
inductive Inserted {α : Type} (extra : α → Prop) : List α → List α → Prop
  | nil : Inserted extra [] []
  | keep {l l' : List α} (a : α) : Inserted extra l l' → Inserted extra (a :: l) (a :: l')
  | insert {l l' : List α} {a : α} : extra a → Inserted extra l l' → Inserted extra l (a :: l')

namespace Inserted

variable {extra : α → Prop} {l l' : List α}

theorem refl (l : List α) : Inserted extra l l := by
  induction l with
  | nil => exact .nil
  | cons a l ih => exact .keep a ih

theorem filter_eq (h : Inserted extra l l') {p : α → Bool} (hp : ∀ a, extra a → p a = false) :
    l'.filter p = l.filter p := by
  induction h with
  | nil => rfl
  | keep a _ ih => rw [List.filter_cons, List.filter_cons, ih]
  | insert ha _ ih => rw [List.filter_cons, hp _ ha, ih]; rfl

theorem foldlM {R : β → γ → Prop} {f : β → α → Except ε β} {g : γ → α → Except ε γ} {b : β}
    {c : γ} (h : Inserted extra l l') (first : R b c)
    (step : ∀ a ∈ l, ∀ b c, R b c → Simulates R (f b a) (g c a))
    (skip : ∀ a, extra a → ∀ b c, R b c → ∃ c', g c a = .ok c' ∧ R b c') :
    Simulates R (l.foldlM f b) (l'.foldlM g c) := by
  induction h generalizing b c with
  | nil => exact .ok first
  | keep a _ ih =>
    rw [List.foldlM_cons, List.foldlM_cons]
    refine (step a List.mem_cons_self b c first).bind fun b' c' _ hbc => ?_
    exact ih hbc fun a' ha' => step a' (List.mem_cons_of_mem _ ha')
  | insert ha _ ih =>
    obtain ⟨c', hc', hbc⟩ := skip _ ha b c first
    rw [List.foldlM_cons, hc']
    exact ih hbc step

end Inserted

end ApiModel
