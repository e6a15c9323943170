import AssemblyDigest.Decimal.Binary64

/-! # Shortest decimals

The text of a double is the decimal with the fewest digits that is read back as the same
double, and of those the one nearest to it; of two equally near ones the larger. It is
always written out with a decimal point and without an exponent.
-/

namespace AssemblyDigest

namespace Binary64

/-- The reals that are read as a double lie between these multiples of a quarter of its
last place; the ends belong to them if the significand is even. -/
structure Interval where
  low : Nat
  value : Nat
  high : Nat
  closed : Bool

/-- The interval around a positive double. Below a power of two the doubles lie twice as
dense. -/
def interval (significand : Nat) (exponent : Int) : Interval where
  low :=
    if significand = leastSignificand ∧ minExponent < exponent then 4 * significand - 1
    else 4 * significand - 2
  value := 4 * significand
  high := 4 * significand + 2
  closed := significand % 2 = 0

/-- The best multiple of a power of ten inside the interval of a double, if there is one.
The interval counts quarters of two to the exponent. -/
def multiple? (bounds : Interval) (exponent power : Int) : Option Nat :=
  let up := Nat.pow 10 (-power).toNat <<< (exponent - 2).toNat
  let down := Nat.pow 10 power.toNat <<< (2 - exponent).toNat
  let inside (count : Nat) : Bool :=
    if bounds.closed then bounds.low * up ≤ count * down ∧ count * down ≤ bounds.high * up
    else bounds.low * up < count * down ∧ count * down < bounds.high * up
  let below := bounds.value * up / down
  let above := below + 1
  match inside below, inside above with
  | true, true =>
      if bounds.value * up - below * down < above * down - bounds.value * up then some below
      else some above
  | true, false => some below
  | false, true => some above
  | false, false => none

/-- Tries falling powers of ten until one has a multiple in the interval. -/
def shortestFrom (bounds : Interval) (exponent : Int) : Nat → Int → Nat × Int
  | 0, power => (0, power)
  | steps + 1, power =>
      match multiple? bounds exponent power with
      | some digits => (digits, power)
      | none => shortestFrom bounds exponent steps (power - 1)

/-- The digits and the power of ten of the shortest decimal of a positive double. -/
def shortest (significand : Nat) (exponent : Int) : Nat × Int :=
  shortestFrom (interval significand exponent) exponent 700 310

/-- Digits times a power of ten, written out with a decimal point. -/
def positional (digits : Nat) (power : Int) : Text :=
  let text := Text.ofNat digits
  if 0 ≤ power then text ++ List.replicate power.toNat '0' ++ ['.', '0']
  else
    let places := (-power).toNat
    let padded := List.replicate (places + 1 - text.length) '0' ++ text
    padded.take (padded.length - places) ++ '.' :: padded.drop (padded.length - places)

/-- The text of a double. -/
def text : Binary64 → Text
  | .nan => ['N', 'a', 'N']
  | .infinite negative => (if negative then ['-'] else []) ++ ['i', 'n', 'f']
  | .finite negative significand exponent =>
      let (digits, power) := if significand = 0 then (0, 0) else shortest significand exponent
      (if negative then ['-'] else []) ++ positional digits power

end Binary64

end AssemblyDigest
