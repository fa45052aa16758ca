import RecordQuery.Decimal.Binary64
import RecordQuery.Text.Numeral

/-!
# Decimal literals

A number in a document is written as a sign, whole digits, and optionally fraction digits and a
power of ten. Its reading as a floating point number takes two steps:

* the *significand* gathers digits as long as it fits 64 bits, whole digits first; a whole digit
  left out counts as a power of ten, a fraction digit left out is dropped, and after the first
  fraction digit that does not fit no further one is taken;
* the significand is rounded to a magnitude and then multiplied or divided by a power of ten,
  each step rounded once. Exponents below `-308` are reached by dividing by `10 ^ 308` first.

`Literal.read` is `none` exactly when a step leaves the range of finite numbers.
-/

namespace RecordQuery

/-- A decimal literal as written. -/
structure Literal where
  negative : Bool
  /-- The digits before the point. -/
  whole : List Char
  /-- The digits after the point, if there is one. -/
  fraction : Option (List Char)
  /-- The power of ten, if one is written. -/
  power : Option Int
  deriving DecidableEq, Repr, Inhabited

namespace Literal

/-- The value of a digit. -/
def digitValue (c : Char) : Nat := c.toNat - '0'.toNat

/-- The largest significand. -/
def significandBound : Nat := UInt64.size

/-- Takes whole digits into the significand while it fits; counts those left out. -/
def takeWhole (significand : Nat) : List Char → Nat × Nat
  | [] => (significand, 0)
  | c :: rest =>
    let next := 10 * significand + digitValue c
    if next < significandBound then takeWhole next rest else (significand, rest.length + 1)

/-- Takes fraction digits into the significand while it fits; counts those taken. -/
def takeFraction (significand : Nat) : List Char → Nat × Nat
  | [] => (significand, 0)
  | c :: rest =>
    let next := 10 * significand + digitValue c
    if next < significandBound then
      let (final, taken) := takeFraction next rest
      (final, taken + 1)
    else (significand, 0)

/-- The greatest power of ten that is a floating point number. -/
def greatestPower : Nat := 308

/-- The magnitude nearest to a power of ten. -/
def powerOfTen (k : Nat) : Magnitude := (Magnitude.ratio (Nat.pow 10 k) 1).getD Magnitude.zero

/-- The magnitude divided by `10 ^ k`, in steps of at most `10 ^ 308`. -/
def divideByPower (m : Magnitude) (k : Nat) : Option Magnitude :=
  let (num, den) := (powerOfTen (min k greatestPower)).toRatio
  match m.times den num with
  | none => none
  | some quotient =>
    if k ≤ greatestPower then some quotient
    else if quotient.significand = 0 then some quotient
    else divideByPower quotient (k - greatestPower)
  termination_by k
  decreasing_by simp only [greatestPower] at *; omega

/-- The magnitude multiplied by `10 ^ k`. -/
def multiplyByPower (m : Magnitude) (k : Nat) : Option Magnitude :=
  if k ≤ greatestPower then
    let (num, den) := (powerOfTen k).toRatio
    m.times num den
  else if m.significand = 0 then some m
  else none

/-- The significand and the power of ten that a literal comes to. -/
def parts (l : Literal) : Nat × Int :=
  let (significand, skipped) := takeWhole 0 l.whole
  let (significand, taken) := takeFraction significand (l.fraction.getD [])
  (significand, (skipped : Int) - taken + l.power.getD 0)

/-- The floating point number that a literal stands for; `none` when it is too large. -/
def read (l : Literal) : Option Binary64 :=
  let (significand, power) := l.parts
  let m := (Magnitude.ratio significand 1).getD Magnitude.zero
  let scaled := if 0 ≤ power then multiplyByPower m power.toNat else divideByPower m (-power).toNat
  scaled.map fun magnitude => ⟨l.negative, magnitude⟩

/-- The integer that a literal without point and power stands for. A zero with a minus sign is
not an integer, since it differs from the zero without. -/
def integer? (l : Literal) : Option Int :=
  if l.fraction.isSome || l.power.isSome then none
  else
    let n := Nat.ofDigitChars 10 l.whole 0
    if l.negative then (if n = 0 then none else some (-(n : Int))) else some n

/-- Reads the characters of a literal: no leading zeros, at least one digit before the point, after
it and in the power. -/
def ofChars? (cs : List Char) : Option Literal :=
  let (negative, cs) := match cs with
    | '-' :: rest => (true, rest)
    | cs => (false, cs)
  let whole := cs.takeWhile Char.isDigit
  let cs := cs.dropWhile Char.isDigit
  let (fraction, cs) := match cs with
    | '.' :: rest => (some (rest.takeWhile Char.isDigit), rest.dropWhile Char.isDigit)
    | cs => (none, cs)
  let power : Option (Option Int) := match cs with
    | [] => some none
    | e :: rest =>
      if e = 'e' ∨ e = 'E' then
        match rest with
        | '+' :: digits => (Text.natural? digits).map fun n => some (n : Int)
        | '-' :: digits => (Text.natural? digits).map fun n => some (-(n : Int))
        | digits => (Text.natural? digits).map fun n => some (n : Int)
      else none
  let plain := match whole with
    | [] => false
    | ['0'] => true
    | '0' :: _ => false
    | _ => true
  if plain && fraction != some [] then power.map fun power => ⟨negative, whole, fraction, power⟩
  else none

end Literal

end RecordQuery
