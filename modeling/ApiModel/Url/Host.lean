import ApiModel.Text.Percent
import ApiModel.Url.Address

namespace ApiModel.Url

open Text (isAsciiDigit isAsciiLetter asciiLower digitValue? splitAt)

def isForbiddenAscii (c : Char) : Bool :=
  c.toNat ≤ 0x20 || c.toNat == 0x7F || "%#/:<>?@[\x5c]^|".toList.contains c

def isForbiddenOpaque (c : Char) : Bool :=
  c.toNat == 0 || "\t\n\r #/:<>?@[\x5c]^|".toList.contains c

def isIgnored (c : Char) : Bool :=
  [0xAD, 0x200B, 0x2060, 0x2064, 0xFEFF].contains c.toNat ||
    (0xFE00 ≤ c.toNat && c.toNat ≤ 0xFE0F)

/-- Visible characters beyond ASCII whose compatible form holds a forbidden one. -/
def refusedRuns : List (Nat × Nat) := [
  (0xA8, 0xA8), (0xAF, 0xAF), (0xB4, 0xB4), (0xB8, 0xB8), (0x2D8, 0x2DD), (0x37A, 0x37A),
  (0x384, 0x385), (0x115F, 0x1160), (0x17B4, 0x17B5), (0x1806, 0x1806), (0x1FBD, 0x1FBD),
  (0x1FBF, 0x1FC1), (0x1FCD, 0x1FCF), (0x1FDD, 0x1FDF), (0x1FED, 0x1FEE), (0x1FFD, 0x1FFE),
  (0x2017, 0x2017), (0x2024, 0x2026), (0x203E, 0x203E), (0x2047, 0x2049), (0x2100, 0x2101),
  (0x2105, 0x2106), (0x2488, 0x249B), (0x2A74, 0x2A74), (0x2FF0, 0x2FFF), (0x309B, 0x309C),
  (0x3164, 0x3164), (0x33C2, 0x33C2), (0x33C7, 0x33C7), (0x33D8, 0x33D8), (0xFC5E, 0xFC63),
  (0xFDFA, 0xFDFB), (0xFE12, 0xFE13), (0xFE16, 0xFE16), (0xFE19, 0xFE19), (0xFE30, 0xFE30),
  (0xFE47, 0xFE4C), (0xFE52, 0xFE52), (0xFE55, 0xFE56), (0xFE5F, 0xFE5F), (0xFE64, 0xFE65),
  (0xFE68, 0xFE68), (0xFE6A, 0xFE6B), (0xFE70, 0xFE70), (0xFE72, 0xFE72), (0xFE74, 0xFE74),
  (0xFE76, 0xFE76), (0xFE78, 0xFE78), (0xFE7A, 0xFE7A), (0xFE7C, 0xFE7C), (0xFE7E, 0xFE7E),
  (0xFFA0, 0xFFA0), (0xFFE3, 0xFFE3), (0xFFFC, 0xFFFD)]

def isRefused (c : Char) : Bool :=
  refusedRuns.any fun (first, last) => first ≤ c.toNat && c.toNat ≤ last

def isAscii (c : Char) : Bool := c.toNat < 0x80

def mayName (c : Char) : Bool :=
  if isAscii c then !isForbiddenAscii c
  else isIgnored c || (Text.isPrintable c && !isRefused c)

def runsLeft (c : Char) : Bool :=
  let n := c.toNat
  Text.isAlphanumeric c && ((0x590 ≤ n && n ≤ 0x8FF) || (0xFB1D ≤ n && n ≤ 0xFDFF) ||
    (0xFE70 ≤ n && n ≤ 0xFEFE) || (0x10800 ≤ n && n ≤ 0x10FFF) || (0x1E800 ≤ n && n ≤ 0x1EFFF))

def isDot (c : Char) : Bool := [0x2E, 0x3002, 0xFF0E, 0xFF61].contains c.toNat

def labelDigit? (c : Char) : Option Nat :=
  let c := asciiLower c
  if isAsciiLetter c then some (c.toNat - 'a'.toNat)
  else if isAsciiDigit c then some (c.toNat - '0'.toNat + 26)
  else none

def adaptSteps : Nat → Nat → Nat → Nat × Nat
  | 0, delta, k => (delta, k)
  | fuel + 1, delta, k =>
      if delta > 455 then adaptSteps fuel (delta / 35) (k + 36) else (delta, k)

def adaptBias (delta count : Nat) (first : Bool) : Nat :=
  let delta := if first then delta / 700 else delta / 2
  let (delta, k) := adaptSteps 64 (delta + delta / count) 0
  k + 36 * delta / (delta + 38)

def labelNumber? (bias : Nat) : List Char → Nat → Nat → Nat → Option (Nat × List Char)
  | [], _, _, _ => none
  | c :: rest, k, weight, sum =>
      match labelDigit? c with
      | none => none
      | some digit =>
          let threshold := if k ≤ bias then 1 else if bias + 26 ≤ k then 26 else k - bias
          let sum := sum + digit * weight
          if sum > 0x7FFFFFFF then none
          else if digit < threshold then some (sum, rest)
          else labelNumber? bias rest (k + 36) (weight * (36 - threshold)) sum

def insertions? : Nat → List Char → List Char → Nat → Nat → Nat → Option (List Char)
  | 0, _, _, _, _, _ => none
  | _ + 1, [], name, _, _, _ => some name
  | fuel + 1, code, name, next, place, bias =>
      match labelNumber? bias code 36 1 0 with
      | none => none
      | some (delta, rest) =>
          let count := name.length + 1
          let bias := adaptBias delta count (place = 0 && next = 0x80)
          let total := place + delta
          let next := next + total / count
          let place := total % count
          if next > 0x10FFFF ∨ (0xD800 ≤ next ∧ next ≤ 0xDFFF) then none
          else
            let name := name.take place ++ Char.ofNat next :: name.drop place
            insertions? fuel rest name next (place + 1) bias

def decodeLabel? (code : List Char) : Option (List Char) :=
  let reversed := code.reverse
  let tail := (reversed.takeWhile (· != '-')).reverse
  let basic := (reversed.drop (tail.length + 1)).reverse
  insertions? (code.length + 1) tail basic 0x80 0 72

def runsRight (c : Char) : Bool := Text.isAlphanumeric c && !isAsciiDigit c && !runsLeft c

/-- In a name with letters that run left, a label begins and ends with letters of one direction,
digits at the end aside, and has none of the other. -/
def runsOneWay (label : List Char) : Bool :=
  let core := (label.reverse.dropWhile Text.isExtender).reverse
  let holds (mine other : Char → Bool) :=
    core.head?.any mine && core.getLast?.any (fun c => mine c || isAsciiDigit c) && !core.any other
  label.isEmpty || holds runsLeft runsRight || holds runsRight runsLeft

def labelName? (label : List Char) : Option (List Char) :=
  let isPlain (name : List Char) := name.all mayName && !name.head?.any Text.isExtender
  match label.map asciiLower with
  | 'x' :: 'n' :: '-' :: '-' :: code => do
      let name ← decodeLabel? code
      if name.any (!isAscii ·) && isPlain name && !name.any Text.isUppercase then some name
      else none
  | _ => if isPlain label then some label else none

def folded (c : Char) : Char :=
  if isDot c then '.'
  else if 0xFF01 ≤ c.toNat && c.toNat ≤ 0xFF5E then Char.ofNat (c.toNat - 0xFEE0)
  else c

def isDomainHost (host : List Char) : Bool :=
  match host with
  | '[' :: rest => rest.getLast? == some ']' && isGroupAddress rest.dropLast
  | _ =>
      let name := ((Text.percentDecode host).map folded).filter (!isIgnored ·)
      match (splitAt '.' name).mapM labelName? with
      | none => false
      | some labels =>
          !name.isEmpty && (!labels.any (·.any runsLeft) || labels.all runsOneWay) &&
            (!endsInNumber name || isDottedAddress name)

def isOpaqueHost (host : List Char) : Bool :=
  match host with
  | '[' :: rest => rest.getLast? == some ']' && isGroupAddress rest.dropLast
  | _ => !host.any isForbiddenOpaque

end ApiModel.Url
