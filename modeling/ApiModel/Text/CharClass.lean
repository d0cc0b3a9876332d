import ApiModel.Text.CharTable

namespace ApiModel.Text

def isAlphanumeric (c : Char) : Bool := Run.holds alphanumericRuns c.toNat

def isLowercase (c : Char) : Bool := Run.holds lowercaseRuns c.toNat

def isUppercase (c : Char) : Bool := Run.holds uppercaseRuns c.toNat

def isBlank (c : Char) : Bool := Run.holds blankRuns c.toNat

def isExtender (c : Char) : Bool := Run.holds extenderRuns c.toNat

def isPrintable (c : Char) : Bool := !Run.holds unprintableRuns c.toNat

def upperForm (c : Char) : List Char :=
  match upperExpansions.lookup c.toNat with
  | some codes => codes.map Char.ofNat
  | none => [Char.ofNat (Shift.apply upperShifts c.toNat)]

def lowerForm (c : Char) : List Char :=
  match lowerExpansions.lookup c.toNat with
  | some codes => codes.map Char.ofNat
  | none => [Char.ofNat (Shift.apply lowerShifts c.toNat)]

def isAsciiDigit (c : Char) : Bool := '0' ≤ c && c ≤ '9'

def isAsciiLetter (c : Char) : Bool := ('a' ≤ c && c ≤ 'z') || ('A' ≤ c && c ≤ 'Z')

def isHexDigit (c : Char) : Bool :=
  isAsciiDigit c || ('a' ≤ c && c ≤ 'f') || ('A' ≤ c && c ≤ 'F')

def digitValue? (c : Char) : Option Nat :=
  if isAsciiDigit c then some (c.toNat - '0'.toNat)
  else if 'a' ≤ c && c ≤ 'f' then some (c.toNat - 'a'.toNat + 10)
  else if 'A' ≤ c && c ≤ 'F' then some (c.toNat - 'A'.toNat + 10)
  else none

def asciiLower (c : Char) : Char :=
  if 'A' ≤ c && c ≤ 'Z' then Char.ofNat (c.toNat + 32) else c

def asciiUpper (c : Char) : Char :=
  if 'a' ≤ c && c ≤ 'z' then Char.ofNat (c.toNat - 32) else c

def trimBlank (s : String) : String :=
  String.ofList ((s.toList.dropWhile isBlank).reverse.dropWhile isBlank).reverse

def splitAt (separator : Char) : List Char → List (List Char)
  | [] => [[]]
  | c :: rest =>
      if c = separator then [] :: splitAt separator rest
      else match splitAt separator rest with
        | [] => [[c]]
        | piece :: pieces => (c :: piece) :: pieces

def splitString (separator : Char) (s : String) : List String :=
  (splitAt separator s.toList).map String.ofList

def afterStart? : List Char → List Char → Option (List Char)
  | [], s => some s
  | _ :: _, [] => none
  | c :: start, d :: s => if c = d then afterStart? start s else none

theorem afterStart?_append (start s : List Char) : afterStart? start (start ++ s) = some s := by
  induction start with
  | nil => rfl
  | cons c start ih => simp [afterStart?, ih]

end ApiModel.Text
