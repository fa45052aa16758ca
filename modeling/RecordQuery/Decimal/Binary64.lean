/-!
# Floating point numbers

A finite binary number of 64 bits is a sign and a magnitude `significand · 2 ^ exponent` with a
significand of at most 53 bits and an exponent between `-1074` and `971`. Magnitudes are computed
exactly in `Nat` and rounded once: `ratio num den` is the magnitude nearest to `num / den`, a tie
going to the even significand, and `none` where the nearest one is out of range. Products and
quotients of magnitudes are rounded ratios.

A magnitude is *normal form* when its significand has 53 bits or its exponent is the least one, so
equal numbers are equal values; `Binary64.same` also takes the two zeros for equal.
-/

namespace RecordQuery

/-- The absolute value `significand · 2 ^ exponent`. -/
structure Magnitude where
  significand : Nat
  exponent : Int
  deriving DecidableEq, Repr, Inhabited

namespace Magnitude

/-- The number of bits of a significand. -/
def precision : Nat := 53

/-- The least exponent. -/
def leastExponent : Int := -1074

/-- The greatest exponent. -/
def greatestExponent : Int := 971

/-- The magnitude zero. -/
def zero : Magnitude := ⟨0, leastExponent⟩

/-- `num / den` rounded to the nearest natural number, a half going to the even neighbour. -/
def divideNearest (num den : Nat) : Nat :=
  let quotient := num / den
  let rest := 2 * (num % den)
  if rest < den then quotient
  else if den < rest then quotient + 1
  else if quotient % 2 = 0 then quotient else quotient + 1

/-- `num / den` as a ratio over `2 ^ exponent`. -/
def scale (num den : Nat) (exponent : Int) : Nat × Nat :=
  if 0 ≤ exponent then (num, den * Nat.pow 2 exponent.toNat)
  else (num * Nat.pow 2 (-exponent).toNat, den)

/-- The exponent at which the significand of `num / den` has 53 bits, but not below the least
one. Both arguments are positive. -/
def exponentOf (num den : Nat) : Int :=
  let guess : Int := (Nat.log2 num : Int) - (Nat.log2 den : Int) - (precision - 1 : Nat)
  let (n, d) := scale num den guess
  let exponent := if n / d < Nat.pow 2 (precision - 1) then guess - 1 else guess
  max exponent leastExponent

/-- The magnitude nearest to `num / den`; `none` when it is out of range. -/
def ratio (num den : Nat) : Option Magnitude :=
  if num = 0 ∨ den = 0 then some zero
  else
    let exponent := exponentOf num den
    let (n, d) := scale num den exponent
    let significand := divideNearest n d
    let rounded : Magnitude :=
      if significand = Nat.pow 2 precision then ⟨Nat.pow 2 (precision - 1), exponent + 1⟩
      else ⟨significand, exponent⟩
    if rounded.exponent ≤ greatestExponent then some rounded else none

/-- The magnitude as a ratio of natural numbers. -/
def toRatio (m : Magnitude) : Nat × Nat :=
  if 0 ≤ m.exponent then (m.significand * Nat.pow 2 m.exponent.toNat, 1)
  else (m.significand, Nat.pow 2 (-m.exponent).toNat)

/-- The rounded product of a magnitude and a ratio. -/
def times (m : Magnitude) (num den : Nat) : Option Magnitude :=
  let (n, d) := m.toRatio
  ratio (n * num) (d * den)

end Magnitude

/-- A finite floating point number. -/
structure Binary64 where
  negative : Bool
  magnitude : Magnitude
  deriving DecidableEq, Repr, Inhabited

namespace Binary64

/-- Whether the number is one of the two zeros. -/
def isZero (x : Binary64) : Bool := x.magnitude.significand = 0

/-- Equality of numbers, for which the two zeros are one. -/
def same (x y : Binary64) : Bool := x = y || (x.isZero && y.isZero)

/-- The number nearest to an integer. -/
def ofInt (n : Int) : Binary64 :=
  ⟨n < 0, (Magnitude.ratio n.natAbs 1).getD Magnitude.zero⟩

end Binary64

end RecordQuery
