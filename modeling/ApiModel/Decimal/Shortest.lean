import ApiModel.Decimal.Binary64
/-!
The fewest decimal digits that read back as a given double. For one digit, two, and so on, the
two neighbours of the number on that decimal grid are tried; the first grid with a neighbour that
rounds to the number wins, and of two such neighbours the nearer.
-/

namespace ApiModel.Decimal

structure Scientific where
  digits : Nat
  exponent : Int
  deriving DecidableEq, Repr

/-- The numbers that round to a positive double: between `low / den` and `high / den`, ends
included or not, with the double itself at `value / den`. -/
structure Basin where
  low : Nat
  value : Nat
  high : Nat
  den : Nat
  closed : Bool

def Basin.of (mantissa : Nat) (exponent : Int) : Basin :=
  let lowGap :=
    if mantissa = Nat.pow 2 52 ∧ exponent > Binary64.leastExponent then 1 else 2
  let scale := exponent - 2
  let up := if 0 ≤ scale then Nat.pow 2 scale.toNat else 1
  let den := if 0 ≤ scale then 1 else Nat.pow 2 (-scale).toNat
  { low := (4 * mantissa - lowGap) * up
    value := 4 * mantissa * up
    high := (4 * mantissa + 2) * up
    den := den
    closed := mantissa % 2 == 0 }

def Basin.holds (b : Basin) (num den : Nat) : Bool :=
  let here := num * b.den
  let low := b.low * den
  let high := b.high * den
  if b.closed then low ≤ here && here ≤ high else low < here && here < high

def Basin.distance (b : Basin) (num den : Nat) : Nat :=
  let here := num * b.den
  let value := b.value * den
  if here ≤ value then value - here else here - value

def leadingPower (num den : Nat) : Nat → Int → Int
  | 0, power => power
  | fuel + 1, power =>
      let next := power + 1
      let reached :=
        if 0 ≤ next then den * Nat.pow 10 next.toNat ≤ num
        else den ≤ num * Nat.pow 10 (-next).toNat
      if reached then leadingPower num den fuel next else power

def Basin.onGrid (b : Basin) (power : Int) : Option Nat :=
  let up := if 0 ≤ power then Nat.pow 10 power.toNat else 1
  let den := if 0 ≤ power then 1 else Nat.pow 10 (-power).toNat
  let below := b.value * den / (b.den * up)
  let above := below + 1
  let hit (n : Nat) := b.holds (n * up) den
  let far (n : Nat) := b.distance (n * up) den
  match hit below, hit above with
  | true, true =>
      if far below < far above then some below
      else if far above < far below then some above
      else if below % 2 = 0 then some below else some above
  | true, false => some below
  | false, true => some above
  | false, false => none

def dropZeros : Nat → Nat → Int → Scientific
  | 0, digits, exponent => ⟨digits, exponent⟩
  | fuel + 1, digits, exponent =>
      if digits % 10 = 0 ∧ digits ≠ 0 then dropZeros fuel (digits / 10) (exponent + 1)
      else ⟨digits, exponent⟩

def shortest (mantissa : Nat) (exponent : Int) : Scientific :=
  let b := Basin.of mantissa exponent
  let bits : Int := b.value.log2 - b.den.log2
  let lead := leadingPower b.value b.den 8 ((bits - 1) * 30103 / 100000 - 1)
  let grids := (List.range 17).map fun (n : Nat) => lead - (n : Int)
  match grids.findSome? fun power => (b.onGrid power).map fun digits => (digits, power) with
  | some (digits, power) => dropZeros 20 digits power
  | none => ⟨mantissa, exponent⟩

end ApiModel.Decimal
