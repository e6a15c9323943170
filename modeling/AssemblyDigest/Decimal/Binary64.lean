import AssemblyDigest.Text

/-! # Binary floating-point numbers

A double is a significand below 2^53 times a power of two not under 2^-1074. A decimal is
read as the double nearest to it, ties to the even significand, in exact integer
arithmetic.
-/

namespace AssemblyDigest

/-- A double-precision number. -/
inductive Binary64 where
  /-- The significand times two to the exponent. -/
  | finite (negative : Bool) (significand : Nat) (exponent : Int)
  | infinite (negative : Bool)
  | nan
  deriving DecidableEq, Repr

namespace Binary64

/-- The exponent of the smallest double. -/
def minExponent : Int := -1074

/-- The largest exponent of a finite double. -/
def maxExponent : Int := 971

/-- The least significand of a double above the smallest exponent. -/
def leastSignificand : Nat := 1 <<< 52

/-- A quotient rounded to the nearest integer, ties to even. -/
def roundQuotient (numerator denominator : Nat) : Nat :=
  let quotient := numerator / denominator
  let doubled := 2 * (numerator % denominator)
  if doubled < denominator ∨ (doubled = denominator ∧ quotient % 2 = 0) then quotient
  else quotient + 1

/-- The integer part of the binary logarithm of a positive fraction. -/
def logQuotient (numerator denominator : Nat) : Int :=
  let guess : Int := (Nat.log2 numerator : Int) - (Nat.log2 denominator : Int)
  if denominator <<< guess.toNat ≤ numerator <<< (-guess).toNat then guess else guess - 1

/-- The double nearest to a positive fraction. -/
def ofQuotient (negative : Bool) (numerator denominator : Nat) : Binary64 :=
  let exponent := max (logQuotient numerator denominator - 52) minExponent
  let rounded :=
    roundQuotient (numerator <<< (-exponent).toNat) (denominator <<< exponent.toNat)
  let (significand, exponent) :=
    if rounded = 2 * leastSignificand then (leastSignificand, exponent + 1)
    else (rounded, exponent)
  if maxExponent < exponent then .infinite negative
  else .finite negative significand exponent

/-- The double nearest to `digits` times ten to the exponent. Decimals far outside the
range of doubles are decided by their size alone. -/
def ofDecimal (negative : Bool) (digits : Nat) (exponent : Int) : Binary64 :=
  let size : Int := (Text.ofNat digits).length + exponent
  if digits = 0 ∨ size < -330 then .finite negative 0 minExponent
  else if 310 < size then .infinite negative
  else ofQuotient negative (digits * Nat.pow 10 exponent.toNat) (Nat.pow 10 (-exponent).toNat)

end Binary64

end AssemblyDigest
