import ApiModel.Text.CharClass

namespace ApiModel

open Text (isAsciiDigit)

/-- Seconds since the start of 1970, and whether this is the leap second after them. -/
structure Timestamp where
  seconds : Int
  leap : Bool
  deriving DecidableEq, Repr

namespace Timestamp

def isLeapYear (year : Int) : Bool := year % 4 == 0 && (year % 100 != 0 || year % 400 == 0)

def monthLength (year : Int) (month : Nat) : Nat :=
  if month = 2 then (if isLeapYear year then 29 else 28)
  else if month = 4 ∨ month = 6 ∨ month = 9 ∨ month = 11 then 30
  else 31

/-- Days from the start of 1970 to a date. Years begin in March, so that a leap day ends one. -/
def daysFromDate (year : Int) (month day : Nat) : Int :=
  let y := if month ≤ 2 then year - 1 else year
  let era := y / 400
  let yearOfEra := y - era * 400
  let shifted : Int := (month + 9) % 12
  let dayOfYear := (153 * shifted + 2) / 5 + day - 1
  let dayOfEra := yearOfEra * 365 + yearOfEra / 4 - yearOfEra / 100 + dayOfYear
  era * 146097 + dayOfEra - 719468

def dateFromDays (days : Int) : Int × Nat × Nat :=
  let z := days + 719468
  let era := z / 146097
  let dayOfEra := z - era * 146097
  let yearOfEra := (dayOfEra - dayOfEra / 1460 + dayOfEra / 36524 - dayOfEra / 146096) / 365
  let dayOfYear := dayOfEra - (365 * yearOfEra + yearOfEra / 4 - yearOfEra / 100)
  let shifted := (5 * dayOfYear + 2) / 153
  let day := dayOfYear - (153 * shifted + 2) / 5 + 1
  let month := if shifted < 10 then shifted + 3 else shifted - 9
  let year := yearOfEra + era * 400
  (if month ≤ 2 then year + 1 else year, month.toNat, day.toNat)

def fixedNumber? (count : Nat) (s : List Char) : Option (Nat × List Char) :=
  let digits := s.take count
  if digits.length = count ∧ digits.all isAsciiDigit then
    some (digits.foldl (fun n c => 10 * n + (c.toNat - '0'.toNat)) 0, s.drop count)
  else none

def expect? (p : Char → Bool) : List Char → Option (List Char)
  | c :: rest => if p c then some rest else none
  | [] => none

def skipFraction? : List Char → Option (List Char)
  | '.' :: s =>
      if s.head?.any isAsciiDigit then some (s.dropWhile isAsciiDigit) else none
  | s => some s

def offset? : List Char → Option Int
  | ['Z'] | ['z'] => some 0
  | sign :: s => do
      let negative ←
        if sign = '+' then some false
        else if sign = '-' ∨ sign = '\u2212' then some true
        else none
      let (hours, s) ← fixedNumber? 2 s
      let s ← expect? (· == ':') s
      let (minutes, s) ← fixedNumber? 2 s
      let distance : Int := 3600 * hours + 60 * minutes
      if s.isEmpty ∧ minutes < 60 ∧ hours < 24 then
        return if negative then -distance else distance
      else none
  | [] => none

def ofString? (text : String) : Option Timestamp := do
  let (year, s) ← fixedNumber? 4 text.toList
  let s ← expect? (· == '-') s
  let (month, s) ← fixedNumber? 2 s
  let s ← expect? (· == '-') s
  let (day, s) ← fixedNumber? 2 s
  let s ← expect? (fun c => c == 'T' || c == 't' || c == ' ') s
  let (hour, s) ← fixedNumber? 2 s
  let s ← expect? (· == ':') s
  let (minute, s) ← fixedNumber? 2 s
  let s ← expect? (· == ':') s
  let (second, s) ← fixedNumber? 2 s
  let offset ← offset? (← skipFraction? s)
  let dated := 1 ≤ month ∧ month ≤ 12 ∧ 1 ≤ day ∧ day ≤ monthLength year month
  if dated ∧ hour < 24 ∧ minute < 60 ∧ second ≤ 60 then
    let time : Int := 3600 * hour + 60 * minute + min second 59
    return ⟨daysFromDate year month day * 86400 + time - offset, second == 60⟩
  else none

def padded (width n : Nat) : String :=
  let digits := (toString n).toList
  String.ofList (List.replicate (width - digits.length) '0' ++ digits)

def pick (names : List String) (n : Int) : String := names[n.toNat]?.getD ""

def weekdays : List String := ["Mon", "Tue", "Wed", "Thu", "Fri", "Sat", "Sun"]

def months : List String :=
  ["Jan", "Feb", "Mar", "Apr", "May", "Jun", "Jul", "Aug", "Sep", "Oct", "Nov", "Dec"]

structure Clock where
  weekday : Int
  year : Int
  month : Nat
  day : Nat
  hour : Nat
  minute : Nat
  second : Nat
  deriving Repr

def clock (t : Timestamp) : Clock :=
  let days := t.seconds / 86400
  let time := (t.seconds % 86400).toNat
  let (year, month, day) := dateFromDays days
  { weekday := (days + 3) % 7
    year, month, day
    hour := time / 3600
    minute := time / 60 % 60
    second := time % 60 + if t.leap then 1 else 0 }

def Clock.time (c : Clock) : String :=
  padded 2 c.hour ++ ":" ++ padded 2 c.minute ++ ":" ++ padded 2 c.second

def yearText (year : Int) : String :=
  let digits := padded 4 year.natAbs
  if year < 0 then "-" ++ digits else if 9999 < year then "+" ++ digits else digits

/-- The mail format has four digits for the year and no sign. -/
def HasMailDate (t : Timestamp) : Prop := 0 ≤ t.clock.year ∧ t.clock.year ≤ 9999

instance (t : Timestamp) : Decidable t.HasMailDate :=
  inferInstanceAs (Decidable (0 ≤ t.clock.year ∧ t.clock.year ≤ 9999))

def toMail (t : Timestamp) : String :=
  let c := t.clock
  pick weekdays c.weekday ++ ", " ++ toString c.day ++ " " ++ pick months (c.month - 1) ++ " " ++
    padded 4 c.year.toNat ++ " " ++ c.time ++ " +0000"

def toInternet (t : Timestamp) : String :=
  let c := t.clock
  yearText c.year ++ "-" ++ padded 2 c.month ++ "-" ++ padded 2 c.day ++ "T" ++ c.time ++ "Z"

def truncate (t : Timestamp) : Timestamp := { t with leap := false }

@[simp] theorem clock_year_truncate (t : Timestamp) : t.truncate.clock.year = t.clock.year := rfl

@[simp] theorem hasMailDate_truncate (t : Timestamp) : t.truncate.HasMailDate ↔ t.HasMailDate :=
  .rfl

end Timestamp

end ApiModel
