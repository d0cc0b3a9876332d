namespace ApiModel.Decimal

/-- The number `± mantissa · 2 ^ exponent`. A normal number has a mantissa of 53 bits, a subnormal
one the exponent -1074. -/
structure Binary64 where
  negative : Bool
  mantissa : Nat
  exponent : Int
  deriving DecidableEq, Repr

namespace Binary64

def leastExponent : Int := -1074

def greatestExponent : Int := 971

def mantissaBits : Nat := 53

def zero (negative : Bool) : Binary64 := ⟨negative, 0, leastExponent⟩

end Binary64

def roundHalfEven (num den : Nat) : Nat :=
  let whole := num / den
  let twice := 2 * (num % den)
  if twice < den then whole
  else if den < twice then whole + 1
  else if whole % 2 = 0 then whole else whole + 1

def scaleDown (num den : Nat) (shift : Int) : Nat × Nat :=
  if 0 ≤ shift then (num, den * Nat.pow 2 shift.toNat) else (num * Nat.pow 2 (-shift).toNat, den)

def nearestDyadic (num den : Nat) : Nat × Int :=
  let guess : Int := (num.log2 : Int) - den.log2 - 52
  let scaled := scaleDown num den guess
  let exponent := if scaled.1 < scaled.2 * Nat.pow 2 52 then guess - 1 else guess
  let exponent := max exponent Binary64.leastExponent
  let scaled := scaleDown num den exponent
  let mantissa := roundHalfEven scaled.1 scaled.2
  if mantissa = Nat.pow 2 Binary64.mantissaBits then (Nat.pow 2 52, exponent + 1)
  else (mantissa, exponent)

def digitCount (n : Nat) : Nat := (Nat.toDigits 10 n).length

def Binary64.ofDecimal? (negative : Bool) (digits : Nat) (exponent : Int) : Option Binary64 :=
  if digits = 0 then some (.zero negative)
  else
    let magnitude : Int := digitCount digits + exponent
    if magnitude > 310 then none
    else if magnitude < -330 then some (.zero negative)
    else
      let fraction : Nat × Nat :=
        if 0 ≤ exponent then (digits * Nat.pow 10 exponent.toNat, 1)
        else (digits, Nat.pow 10 (-exponent).toNat)
      let (mantissa, binary) := nearestDyadic fraction.1 fraction.2
      if binary > greatestExponent then none
      else if mantissa = 0 then some (.zero negative)
      else some ⟨negative, mantissa, binary⟩

end ApiModel.Decimal
