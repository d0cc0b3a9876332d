import ApiModel.BaseUrl
import ApiModel.Proofs.Url.Absolute
import Mathlib.Data.List.TakeWhile

namespace ApiModel.Server

def IsName (name : List Char) : Prop := name ≠ [] ∧ ∀ c ∈ name, isVariableChar c = true

/-- What takes the place of a variable: its fallback, else the first of its values, else its name in
braces as written. -/
def replacement (server : Server) (name : List Char) : List Char :=
  match server.placeholders.get? (String.ofList name) with
  | some ⟨_, some value⟩ => value.toList
  | some ⟨some (value :: _), none⟩ => value.toList
  | _ => '\x7b' :: name ++ ['\x7d']

inductive Fills (server : Server) : List Char → List Char → Prop
  | nil : Fills server [] []
  | placeholder {name rest filled : List Char} : IsName name → Fills server rest filled →
      Fills server ('\x7b' :: name ++ '\x7d' :: rest) (server.replacement name ++ filled)
  | other {c : Char} {rest filled : List Char} :
      (∀ name more, IsName name → c :: rest ≠ '\x7b' :: name ++ '\x7d' :: more) →
        Fills server rest filled → Fills server (c :: rest) (c :: filled)

inductive Kept : List Char → Prop
  | rooted (rest : List Char) : Kept ('/' :: rest)
  | complete {s : List Char} : "://".toList <:+: s → Url.isAbsolute s = true → Kept s

inductive Closes : List Char → List Char → Prop
  | same {s : List Char} : s.getLast? = some '/' → Closes s s
  | added {s : List Char} : s.getLast? ≠ some '/' → Closes s (s ++ ['/'])

variable {server : Server} {s t name rest filled : List Char}

theorem Closes.length_le (h : Closes s t) : s.length ≤ t.length ∧ t.length ≤ s.length + 1 := by
  cases h with
  | same _ => exact ⟨Nat.le_refl _, Nat.le_succ _⟩
  | added _ => simp

end ApiModel.Server
