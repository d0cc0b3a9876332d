import ApiModel.Text.CharClass

namespace ApiModel.Text

def replacementChar : Char := '\uFFFD'

def leadingOctet? (octet : UInt8) : Option (Nat × UInt8 × UInt8) :=
  if octet < 0xC2 then none
  else if octet < 0xE0 then some (2, 0x80, 0xBF)
  else if octet = 0xE0 then some (3, 0xA0, 0xBF)
  else if octet = 0xED then some (3, 0x80, 0x9F)
  else if octet < 0xF0 then some (3, 0x80, 0xBF)
  else if octet = 0xF0 then some (4, 0x90, 0xBF)
  else if octet < 0xF4 then some (4, 0x80, 0xBF)
  else if octet = 0xF4 then some (4, 0x80, 0x8F)
  else none

def isContinuation (octet : UInt8) : Bool := 0x80 ≤ octet && octet ≤ 0xBF

def codePoint (bits : Nat) (octets : List UInt8) : Char :=
  Char.ofNat (octets.foldl (fun n o => 64 * n + o.toNat % 64) bits)

/-- Each longest beginning of a character that breaks off becomes one replacement character. -/
def decodeOctets : List UInt8 → List Char
  | [] => []
  | a :: rest =>
      if a < 0x80 then Char.ofNat a.toNat :: decodeOctets rest
      else match leadingOctet? a with
        | none => replacementChar :: decodeOctets rest
        | some (count, low, high) =>
            match rest with
            | [] => [replacementChar]
            | b :: rest₁ =>
                if b < low || high < b then replacementChar :: decodeOctets (b :: rest₁)
                else if count = 2 then codePoint (a.toNat % 32) [b] :: decodeOctets rest₁
                else match rest₁ with
                  | [] => [replacementChar]
                  | c :: rest₂ =>
                      if !isContinuation c then replacementChar :: decodeOctets (c :: rest₂)
                      else if count = 3 then
                        codePoint (a.toNat % 16) [b, c] :: decodeOctets rest₂
                      else match rest₂ with
                        | [] => [replacementChar]
                        | d :: rest₃ =>
                            if !isContinuation d then
                              replacementChar :: decodeOctets (d :: rest₃)
                            else codePoint (a.toNat % 8) [b, c, d] :: decodeOctets rest₃

def percentOctets : List Char → List UInt8
  | [] => []
  | '%' :: a :: b :: rest =>
      match digitValue? a, digitValue? b with
      | some x, some y => UInt8.ofNat (16 * x + y) :: percentOctets rest
      | _, _ => '%'.toUInt8 :: percentOctets (a :: b :: rest)
  | c :: rest => String.utf8EncodeChar c ++ percentOctets rest

def percentDecode (s : List Char) : List Char := decodeOctets (percentOctets s)

end ApiModel.Text
