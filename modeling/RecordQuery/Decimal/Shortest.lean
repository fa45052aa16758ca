import RecordQuery.Decimal.Binary64

/-!
# Shortest decimal text

A floating point number is written with the fewest decimal digits that read back as the same
number, and of those digits the ones nearest to it.

The reals that round to a magnitude form an interval. Its ends lie half way to the two neighbouring
magnitudes and belong to it when the significand is even. If any decimal with `n` digits lies in
the interval, then so does one of the two decimals with `n` digits next to the number itself, so
`shortest` looks at those two for `n = 1, 2, …, 17`.

`Layout` holds the choices of the written form and `Layout.text` applies them.
-/

namespace RecordQuery

namespace Magnitude

/-- The interval of reals that round to a magnitude: its two ends over a common denominator. -/
structure Interval where
  low : Nat
  value : Nat
  high : Nat
  denominator : Nat
  closed : Bool

/-- The interval around a magnitude. Below a power of two the neighbour is half as far away. -/
def interval (m : Magnitude) : Interval :=
  let (num, den) := m.toRatio
  let unit := num / m.significand
  let below := m.significand = Nat.pow 2 (precision - 1) ∧ leastExponent < m.exponent
  { low := 4 * num - if below then unit else 2 * unit
    value := 4 * num
    high := 4 * num + 2 * unit
    denominator := 4 * den
    closed := m.significand % 2 = 0 }

/-- Whether `num / den` lies in an interval. -/
def Interval.contains (i : Interval) (num den : Nat) : Bool :=
  let point := num * i.denominator
  if i.closed then i.low * den ≤ point && point ≤ i.high * den
  else i.low * den < point && point < i.high * den

/-- The number of zeros after the point before the first digit of `num / den`, and one more; zero
when `num / den` is at least one. -/
def zerosAfterPoint (num den : Nat) : Nat :=
  if num = 0 then 0
  else if den ≤ num then 0
  else zerosAfterPoint (10 * num) den + 1
  termination_by den - num

/-- The power of ten of the first digit of `num / den`. -/
def leadingPower (num den : Nat) : Int :=
  if den ≤ num then ((Nat.toDigits 10 (num / den)).length : Int) - 1
  else -(zerosAfterPoint num den : Int)

/-- The multiple of `10 ^ power` in the interval that is nearest to the value, if there is one; it
is the multiple below or above the value, and of two equally near the even one. -/
def Interval.nearest? (i : Interval) (power : Int) : Option Nat :=
  let up := Nat.pow 10 power.toNat
  let down := Nat.pow 10 (-power).toNat
  let below := i.value * down / (i.denominator * up)
  let above := below + 1
  match i.contains (below * up) down, i.contains (above * up) down with
  | false, false => none
  | true, false => some below
  | false, true => some above
  | true, true =>
    let twice := 2 * (i.value * down)
    let middle := (below + above) * (i.denominator * up)
    if twice < middle then some below
    else if middle < twice then some above
    else if below % 2 = 0 then some below else some above

/-- The number without its trailing zeros, and how many they were. -/
def dropZeros (n : Nat) : Nat × Nat :=
  if n = 0 then (0, 0)
  else if n % 10 = 0 then
    let (rest, count) := dropZeros (n / 10)
    (rest, count + 1)
  else (n, 0)
  termination_by n

/-- Looks for a decimal of `digits` digits, then of one more, for `fuel` lengths. -/
def search (i : Interval) (leading : Int) (digits : Nat) : Nat → Option (Nat × Int)
  | 0 => none
  | fuel + 1 =>
    let power := leading - (digits - 1 : Nat)
    match i.nearest? power with
    | some n =>
      let (rest, count) := dropZeros n
      some (rest, power + count)
    | none => search i leading (digits + 1) fuel

/-- The most digits that a shortest decimal has. -/
def mostDigits : Nat := 17

/-- The shortest decimal `n · 10 ^ power` of a magnitude. -/
def shortest (m : Magnitude) : Nat × Int :=
  if m.significand = 0 then (0, 0)
  else
    let (num, den) := m.toRatio
    (search m.interval (leadingPower num den) 1 mostDigits).getD (0, 0)

end Magnitude

/-- The choices of a written number. -/
structure Layout where
  /-- The least power of the first digit at which the number is written without a power of ten. -/
  leastPlain : Int
  /-- The first power of the first digit at which it is written with one again. -/
  firstScientific : Int
  deriving Repr

namespace Layout

/-- `digits` digits with the point after the first `power + 1` of them. A point always stands
between two digits. -/
def plain (digits : List Char) (power : Int) : List Char :=
  if power < 0 then
    ['0', '.'] ++ List.replicate ((-power).toNat - 1) '0' ++ digits
  else
    let whole := power.toNat + 1
    if digits.length ≤ whole then
      digits ++ List.replicate (whole - digits.length) '0' ++ ['.', '0']
    else digits.take whole ++ ['.'] ++ digits.drop whole

/-- The first digit, the others behind a point, and the signed power of ten. -/
def scientific (digits : List Char) (power : Int) : List Char :=
  let mantissa := match digits with
    | first :: second :: others => first :: '.' :: second :: others
    | few => few
  let sign := if power < 0 then '-' else '+'
  mantissa ++ ['e', sign] ++ Nat.toDigits 10 power.natAbs

/-- The text of a number. -/
def text (layout : Layout) (x : Binary64) : String :=
  let (n, power) := x.magnitude.shortest
  let digits := Nat.toDigits 10 n
  let leading := power + (digits.length - 1 : Nat)
  let body :=
    if layout.leastPlain ≤ leading ∧ leading < layout.firstScientific then plain digits leading
    else scientific digits leading
  String.ofList (if x.negative then '-' :: body else body)

end Layout

end RecordQuery
