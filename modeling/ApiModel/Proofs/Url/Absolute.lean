import ApiModel.Proofs.Text
import ApiModel.Url.Basic

namespace ApiModel.Url

section

variable {α : Type} {p : α → Bool} {front : List α}

end

structure Delimited (authority rest : List Char) : Prop where
  nonempty : authority ≠ []
  plain : ∀ c ∈ authority, 0x20 < c.toNat ∧ c ∉ "/?#\x5c".toList
  ends : ∀ c ∈ rest.head?, c ∈ "/?#\x5c".toList

theorem endsAuthority_domain_iff {c : Char} :
    endsAuthority .domain c = true ↔ c ∈ "/?#\x5c".toList := by
  simp [endsAuthority, or_assoc]

theorem Delimited.inside {authority rest : List Char} (h : Delimited authority rest) {c : Char}
    (hc : c ∈ authority) : endsAuthority .domain c = false := by
  rw [Bool.eq_false_iff, Ne, endsAuthority_domain_iff]
  exact (h.plain c hc).2

end ApiModel.Url
