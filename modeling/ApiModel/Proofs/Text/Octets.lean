import ApiModel.Text.Percent

namespace ApiModel

namespace Text

section

variable {a b c d low high : UInt8} {rest : List UInt8}

theorem decodeOctets_two (ha : ¬a < 0x80) (hlead : leadingOctet? a = some (2, low, high))
    (hlow : low ≤ b) (hhigh : b ≤ high) :
    decodeOctets (a :: b :: rest) = codePoint (a.toNat % 32) [b] :: decodeOctets rest := by
  rw [decodeOctets, if_neg ha, hlead]
  simp [UInt8.not_lt.2 hlow, UInt8.not_lt.2 hhigh]

theorem decodeOctets_three (ha : ¬a < 0x80) (hlead : leadingOctet? a = some (3, low, high))
    (hlow : low ≤ b) (hhigh : b ≤ high) (hc : isContinuation c = true) :
    decodeOctets (a :: b :: c :: rest) =
      codePoint (a.toNat % 16) [b, c] :: decodeOctets rest := by
  rw [decodeOctets, if_neg ha, hlead]
  simp [UInt8.not_lt.2 hlow, UInt8.not_lt.2 hhigh, hc]

theorem decodeOctets_four (ha : ¬a < 0x80) (hlead : leadingOctet? a = some (4, low, high))
    (hlow : low ≤ b) (hhigh : b ≤ high) (hc : isContinuation c = true)
    (hd : isContinuation d = true) :
    decodeOctets (a :: b :: c :: d :: rest) =
      codePoint (a.toNat % 8) [b, c, d] :: decodeOctets rest := by
  rw [decodeOctets, if_neg ha, hlead]
  simp [UInt8.not_lt.2 hlow, UInt8.not_lt.2 hhigh, hc, hd]

end

theorem toNat_octet {n : Nat} (h : n < 256) : (UInt8.ofNat n).toNat = n := by
  rw [UInt8.toNat_ofNat', Nat.mod_eq_of_lt h]

theorem octet_le {m n : Nat} (h : m ≤ n) (hn : n < 256) : UInt8.ofNat m ≤ UInt8.ofNat n := by
  rw [UInt8.le_iff_toNat_le, toNat_octet hn, toNat_octet (Nat.lt_of_le_of_lt h hn)]
  exact h

theorem octet_not_ascii {n : Nat} (h : 128 ≤ n) (hn : n < 256) : ¬UInt8.ofNat n < 0x80 :=
  UInt8.not_lt.2 (octet_le h hn)

theorem isContinuation_octet (n : Nat) : isContinuation (UInt8.ofNat (n % 64 + 128)) = true := by
  rw [isContinuation, Bool.and_eq_true, decide_eq_true_eq, decide_eq_true_eq]
  exact ⟨octet_le (m := 128) (by omega) (by omega), octet_le (n := 191) (by omega) (by omega)⟩

theorem codePoint_octet (bits n : Nat) (octets : List UInt8) :
    codePoint bits (UInt8.ofNat (n % 64 + 128) :: octets) =
      codePoint (64 * bits + n % 64) octets := by
  have hlow : (UInt8.ofNat (n % 64 + 128)).toNat % 64 = n % 64 := by
    rw [toNat_octet (by omega)]
    omega
  rw [codePoint, List.foldl_cons, hlow]
  rfl

theorem leadingOctet?_two : ∀ n < 32, 2 ≤ n →
    leadingOctet? (UInt8.ofNat (n + 192)) = some (2, 0x80, 0xBF) := by decide

-- A second octet below the first of these bounds would encode a code point that needs fewer octets,
-- one above the last a surrogate or a number that is no code point.
theorem leadingOctet?_three : ∀ n < 16, leadingOctet? (UInt8.ofNat (n + 224)) =
    some (3, UInt8.ofNat (if n = 0 then 160 else 128),
      UInt8.ofNat (if n = 13 then 159 else 191)) := by
  decide

theorem leadingOctet?_four : ∀ n < 5, leadingOctet? (UInt8.ofNat (n + 240)) =
    some (4, UInt8.ofNat (if n = 0 then 144 else 128),
      UInt8.ofNat (if n = 4 then 143 else 191)) := by
  decide

section

variable {v : Nat} {rest : List UInt8}

theorem decodeOctets_ofOne (h : v < 0x80) :
    decodeOctets (UInt8.ofNat v :: rest) = Char.ofNat v :: decodeOctets rest := by
  have hv : (UInt8.ofNat v).toNat = v := toNat_octet (by omega)
  have hascii : UInt8.ofNat v < 0x80 := by
    rw [UInt8.lt_iff_toNat_lt, hv]
    exact h
  rw [decodeOctets, if_pos hascii, hv]

theorem decodeOctets_ofTwo (hlow : 0x80 ≤ v) (hhigh : v < 0x800) :
    decodeOctets (UInt8.ofNat (v / 64 % 32 + 192) :: UInt8.ofNat (v % 64 + 128) :: rest) =
      Char.ofNat v :: decodeOctets rest := by
  have hlead := leadingOctet?_two (v / 64 % 32) (by omega) (by omega)
  have hfirst := octet_not_ascii (n := v / 64 % 32 + 192) (by omega) (by omega)
  have hsecond := octet_le (m := 128) (n := v % 64 + 128) (by omega) (by omega)
  have hsecond' := octet_le (m := v % 64 + 128) (n := 191) (by omega) (by omega)
  rw [decodeOctets_two hfirst hlead hsecond hsecond', codePoint_octet, toNat_octet (by omega)]
  have hbits : 64 * ((v / 64 % 32 + 192) % 32) + v % 64 = v := by omega
  rw [hbits]
  rfl

theorem decodeOctets_ofThree (hlow : 0x800 ≤ v) (hhigh : v < 0x10000)
    (hscalar : v < 0xD800 ∨ 0xDFFF < v) :
    decodeOctets (UInt8.ofNat (v / 4096 % 16 + 224) :: UInt8.ofNat (v / 64 % 64 + 128) ::
      UInt8.ofNat (v % 64 + 128) :: rest) = Char.ofNat v :: decodeOctets rest := by
  have hlead := leadingOctet?_three (v / 4096 % 16) (by omega)
  have hfirst := octet_not_ascii (n := v / 4096 % 16 + 224) (by omega) (by omega)
  have hsecond := octet_le (m := if v / 4096 % 16 = 0 then 160 else 128) (n := v / 64 % 64 + 128)
    (by split <;> omega) (by omega)
  have hsecond' := octet_le (m := v / 64 % 64 + 128) (n := if v / 4096 % 16 = 13 then 159 else 191)
    (by split <;> omega) (by split <;> omega)
  rw [decodeOctets_three hfirst hlead hsecond hsecond' (isContinuation_octet v), codePoint_octet,
    codePoint_octet, toNat_octet (by omega)]
  have hbits : 64 * (64 * ((v / 4096 % 16 + 224) % 16) + v / 64 % 64) + v % 64 = v := by omega
  rw [hbits]
  rfl

theorem decodeOctets_ofFour (hlow : 0x10000 ≤ v) (hhigh : v < 0x110000) :
    decodeOctets (UInt8.ofNat (v / 262144 % 8 + 240) :: UInt8.ofNat (v / 4096 % 64 + 128) ::
      UInt8.ofNat (v / 64 % 64 + 128) :: UInt8.ofNat (v % 64 + 128) :: rest) =
        Char.ofNat v :: decodeOctets rest := by
  have hlead := leadingOctet?_four (v / 262144 % 8) (by omega)
  have hfirst := octet_not_ascii (n := v / 262144 % 8 + 240) (by omega) (by omega)
  have hsecond := octet_le (m := if v / 262144 % 8 = 0 then 144 else 128)
    (n := v / 4096 % 64 + 128) (by split <;> omega) (by omega)
  have hsecond' := octet_le (m := v / 4096 % 64 + 128)
    (n := if v / 262144 % 8 = 4 then 143 else 191) (by split <;> omega) (by split <;> omega)
  rw [decodeOctets_four hfirst hlead hsecond hsecond' (isContinuation_octet (v / 64))
    (isContinuation_octet v), codePoint_octet, codePoint_octet, codePoint_octet,
    toNat_octet (by omega)]
  have hbits : 64 * (64 * (64 * ((v / 262144 % 8 + 240) % 8) + v / 4096 % 64) + v / 64 % 64) +
      v % 64 = v := by omega
  rw [hbits]
  rfl

end

theorem decodeOctets_char (c : Char) (rest : List UInt8) :
    decodeOctets (String.utf8EncodeChar c ++ rest) = c :: decodeOctets rest := by
  have hscalar : c.val.toNat < 0xD800 ∨ 0xDFFF < c.val.toNat ∧ c.val.toNat < 0x110000 := c.valid
  have hofNat : Char.ofNat c.val.toNat = c := Char.ofNat_toNat c
  rw [String.utf8EncodeChar]
  generalize c.val.toNat = v at hscalar hofNat ⊢
  rw [← hofNat]
  split
  · exact decodeOctets_ofOne (by omega)
  · split
    · exact decodeOctets_ofTwo (by omega) (by omega)
    · split
      · exact decodeOctets_ofThree (by omega) (by omega) (by omega)
      · exact decodeOctets_ofFour (by omega) (by omega)

theorem decodeOctets_text (s : List Char) :
    decodeOctets (s.flatMap String.utf8EncodeChar) = s := by
  induction s with
  | nil => rfl
  | cons c s ih => rw [List.flatMap_cons, decodeOctets_char, ih]

def isUnreserved (c : Char) : Bool :=
  isAsciiLetter c || isAsciiDigit c || ['-', '.', '_', '~'].contains c

def hexDigit (n : Nat) : Char := Char.ofNat (if n < 10 then 48 + n else 55 + n)

def escapeOctet (octet : UInt8) : List Char :=
  if isUnreserved (Char.ofNat octet.toNat) then [Char.ofNat octet.toNat]
  else ['%', hexDigit (octet.toNat / 16), hexDigit (octet.toNat % 16)]

def percentEncode (s : List Char) : List Char :=
  (s.flatMap String.utf8EncodeChar).flatMap escapeOctet

theorem digitValue?_hexDigit : ∀ n < 16, digitValue? (hexDigit n) = some n := by decide

theorem percentOctets_escape (octet : UInt8) (rest : List Char) :
    percentOctets ('%' :: hexDigit (octet.toNat / 16) :: hexDigit (octet.toNat % 16) :: rest) =
      octet :: percentOctets rest := by
  have hlt := octet.toNat_lt
  rw [percentOctets, digitValue?_hexDigit _ (by omega), digitValue?_hexDigit _ (by omega)]
  have hwhole : 16 * (octet.toNat / 16) + octet.toNat % 16 = octet.toNat := by omega
  simp only [hwhole, UInt8.ofNat_toNat]

theorem percentOctets_cons {c : Char} (h : c ≠ '%') (rest : List Char) :
    percentOctets (c :: rest) = String.utf8EncodeChar c ++ percentOctets rest := by
  rw [percentOctets.eq_def]
  split
  · next heq => cases heq
  · next heq =>
    cases heq
    exact absurd rfl h
  · next heq =>
    cases heq
    rfl

theorem unreserved_octet : ∀ n < 256, isUnreserved (Char.ofNat n) = true →
    Char.ofNat n ≠ '%' ∧ String.utf8EncodeChar (Char.ofNat n) = [UInt8.ofNat n] := by
  decide +kernel

theorem percentOctets_escapeOctet (octet : UInt8) (rest : List Char) :
    percentOctets (escapeOctet octet ++ rest) = octet :: percentOctets rest := by
  unfold escapeOctet
  split
  · next hplain =>
    obtain ⟨hpercent, hoctet⟩ := unreserved_octet octet.toNat octet.toNat_lt hplain
    rw [List.singleton_append, percentOctets_cons hpercent, hoctet, UInt8.ofNat_toNat]
    rfl
  · exact percentOctets_escape octet rest

theorem mem_escapeOctet : ∀ n < 256, '/' ∉ escapeOctet (UInt8.ofNat n) ∧
    ('~' ∈ escapeOctet (UInt8.ofNat n) → n = 126) := by
  decide +kernel

theorem slash_not_mem_percentEncode (s : List Char) : '/' ∉ percentEncode s := by
  intro h
  obtain ⟨octet, -, hslash⟩ := List.mem_flatMap.1 h
  rw [← octet.ofNat_toNat] at hslash
  exact (mem_escapeOctet octet.toNat octet.toNat_lt).1 hslash

theorem eq_of_mem_utf8EncodeChar {c : Char} {octet : UInt8} (h : octet ∈ String.utf8EncodeChar c)
    (hascii : octet < 0x80) : c = Char.ofNat octet.toNat := by
  have hofNat : Char.ofNat c.val.toNat = c := Char.ofNat_toNat c
  rw [String.utf8EncodeChar] at h
  generalize c.val.toNat = v at hofNat h
  -- The octets of a character beyond ASCII are all 128 or more.
  have hlarge {n : Nat} (hn : 128 ≤ n) (hn' : n < 256) : octet ≠ UInt8.ofNat n := by
    rintro rfl
    exact octet_not_ascii hn hn' hascii
  split at h
  · next hone =>
    rw [List.mem_singleton.1 h, toNat_octet (by omega), hofNat]
  · split at h
    · simp only [List.mem_cons, List.not_mem_nil, or_false] at h
      rcases h with h | h <;> exact absurd h (hlarge (by omega) (by omega))
    · split at h
      · simp only [List.mem_cons, List.not_mem_nil, or_false] at h
        rcases h with h | h | h <;> exact absurd h (hlarge (by omega) (by omega))
      · simp only [List.mem_cons, List.not_mem_nil, or_false] at h
        rcases h with h | h | h | h <;> exact absurd h (hlarge (by omega) (by omega))

theorem tilde_not_mem_percentEncode {c : Char} (h : c ≠ '~') : '~' ∉ percentEncode [c] := by
  intro htilde
  obtain ⟨octet, hmem, hoctet⟩ := List.mem_flatMap.1 htilde
  rw [List.flatMap_singleton] at hmem
  rw [← octet.ofNat_toNat] at hoctet
  have h126 := (mem_escapeOctet octet.toNat octet.toNat_lt).2 hoctet
  have hascii : octet < 0x80 := by
    rw [UInt8.lt_iff_toNat_lt, h126]
    decide
  rw [eq_of_mem_utf8EncodeChar hmem hascii, h126] at h
  exact h rfl

theorem percentEncode_flatMap (f : Char → List Char) (s : List Char) :
    percentEncode (s.flatMap f) = s.flatMap fun c => percentEncode (f c) := by
  simp only [percentEncode, List.flatMap_assoc]

theorem percentOctets_percentEncode (s rest : List Char) :
    percentOctets (percentEncode s ++ rest) =
      s.flatMap String.utf8EncodeChar ++ percentOctets rest := by
  unfold percentEncode
  induction s.flatMap String.utf8EncodeChar with
  | nil => rfl
  | cons octet octets ih =>
    rw [List.flatMap_cons, List.append_assoc, percentOctets_escapeOctet, ih]
    rfl

end Text

end ApiModel
