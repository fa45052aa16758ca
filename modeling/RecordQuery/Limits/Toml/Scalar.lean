import RecordQuery.Decimal.Literal
import RecordQuery.Limits.Toml.Text

/-!
# Numbers, constants and dates of TOML

Integers fit a signed word of 64 bits and are written in base ten, sixteen, eight or two. Floats
have a fraction or a power of ten. Single underscores may stand between digits. A date is a day of
the calendar, a time of the day, or both, with an offset if wanted.
-/

namespace RecordQuery.Toml

-- ---------------------------------------------------------------------------
-- Numbers
-- ---------------------------------------------------------------------------

/-- Digits with single underscores between them, without the underscores. -/
def joinedDigits? (isDigit : Char → Bool) : List Char → Option (List Char)
  | [] => none
  | [c] => if isDigit c then some [c] else none
  | c :: '_' :: rest =>
    if isDigit c then (joinedDigits? isDigit rest).map (c :: ·) else none
  | c :: rest => if isDigit c then (joinedDigits? isDigit rest).map (c :: ·) else none

/-- Decimal digits without a leading zero. -/
def plainDigits? (cs : List Char) : Option (List Char) :=
  match joinedDigits? Char.isDigit cs with
  | some ('0' :: _ :: _) => none
  | digits => digits

/-- The sign in front of a number, and the rest. -/
def splitSign : List Char → Bool × List Char
  | '-' :: rest => (true, rest)
  | '+' :: rest => (false, rest)
  | cs => (false, cs)

/-- A number in another base. -/
def based? (base : Nat) (cs : List Char) : Option Nat := do
  let below (c : Char) : Bool := (hexDigit? c).any (· < base)
  let digits ← joinedDigits? below cs
  digits.foldlM (fun n c => (hexDigit? c).map (base * n + ·)) 0

/-- An integer that fits a signed word of 64 bits. -/
def integer? (cs : List Char) : Option Int :=
  let n : Option Int := match cs with
    | '0' :: 'x' :: digits => (based? 16 digits).map Int.ofNat
    | '0' :: 'o' :: digits => (based? 8 digits).map Int.ofNat
    | '0' :: 'b' :: digits => (based? 2 digits).map Int.ofNat
    | cs =>
      let (negative, digits) := splitSign cs
      (plainDigits? digits).map fun digits =>
        let n : Int := Nat.ofDigitChars 10 digits 0
        if negative then -n else n
  n.filter fun n => Int64.minValue.toInt ≤ n ∧ n ≤ Int64.maxValue.toInt

/-- Whether a text is a float. -/
def isFloat (cs : List Char) : Bool :=
  let (_, cs) := splitSign cs
  if cs = "inf".toList ∨ cs = "nan".toList then true
  else
    let isDigits (part : List Char) : Bool := (joinedDigits? Char.isDigit part).isSome
    let isMark (c : Char) : Bool := c = '.' || c = 'e' || c = 'E'
    let isPower (part : List Char) : Bool := isDigits (splitSign part).2
    (plainDigits? (cs.takeWhile fun c => !isMark c)).isSome &&
      match cs.dropWhile fun c => !isMark c with
      | '.' :: rest =>
        let isPowerMark (c : Char) : Bool := c = 'e' || c = 'E'
        isDigits (rest.takeWhile fun c => !isPowerMark c) &&
          match rest.dropWhile fun c => !isPowerMark c with
          | [] => true
          | _ :: power => isPower power
      | _ :: power => isPower power
      | [] => false

/-- Whether a literal rounds to no finite floating point number: it is at least as large as the
point halfway between the greatest one and the next power of two. -/
def isTooLarge (l : Literal) : Bool :=
  let fraction := l.fraction.getD []
  let n := Nat.ofDigitChars 10 (l.whole ++ fraction) 0
  let power := l.power.getD 0 - fraction.length
  let size : Int := (Nat.toDigits 10 n).length + power
  n != 0 && 300 < size &&
    (310 < size ||
      (Nat.pow 2 1024 - Nat.pow 2 970) * Nat.pow 10 (-power).toNat ≤ n * Nat.pow 10 power.toNat)

/-- Whether a float is out of range. Only positive ones are held to a range. -/
def isOutOfRange (cs : List Char) : Bool :=
  let (negative, cs) := splitSign cs
  !negative && (Literal.ofChars? (cs.filter (· ≠ '_'))).any isTooLarge

/-- Whether a character may stand in a number or in the name of a constant. -/
def isAtomChar (c : Char) : Bool := c.isAlphanum || c = '_' || c = '+' || c = '-' || c = '.'

/-- The value of a number or of the name of a constant. -/
def atom? (cs : List Char) : Option Toml :=
  match String.ofList cs with
  | "true" => some (.boolean true)
  | "false" => some (.boolean false)
  | _ =>
    match integer? cs with
    | some n => some (.integer n)
    | none => if isFloat cs && !isOutOfRange cs then some .float else none

-- ---------------------------------------------------------------------------
-- Dates
-- ---------------------------------------------------------------------------

/-- A number of so many digits, and the text behind it. -/
def digits? (count : Nat) (cs : List Char) : Option (Nat × List Char) :=
  let digits := cs.take count
  if digits.length = count ∧ digits.all Char.isDigit then
    some (Nat.ofDigitChars 10 digits 0, cs.drop count)
  else none

/-- A number of two digits up to a bound, and the text behind it. -/
def two? (bound : Nat) (cs : List Char) : Option (Nat × List Char) :=
  (digits? 2 cs).filter fun (n, _) => n ≤ bound

/-- The text behind a mark. -/
def behind? (mark : Char) : List Char → Option (List Char)
  | c :: rest => if c = mark then some rest else none
  | [] => none

/-- The number of days of a month. -/
def daysOf (year month : Nat) : Nat :=
  if month = 2 then
    if year % 4 = 0 ∧ (year % 100 ≠ 0 ∨ year % 400 = 0) then 29 else 28
  else if month ∈ [4, 6, 9, 11] then 30
  else 31

/-- The text behind a day. -/
def day? (cs : List Char) : Option (List Char) := do
  let (year, cs) ← digits? 4 cs
  let (month, cs) ← two? 12 (← behind? '-' cs)
  let (day, cs) ← two? (daysOf year month) (← behind? '-' cs)
  if month = 0 ∨ day = 0 then none else some cs

/-- The text behind hours and minutes. -/
def minutes? (cs : List Char) : Option (List Char) := do
  let (_, cs) ← two? 23 cs
  let (_, cs) ← two? 59 (← behind? ':' cs)
  return cs

/-- The text behind a time of the day. A minute may have a leap second. -/
def time? (cs : List Char) : Option (List Char) := do
  let (_, cs) ← two? 60 (← behind? ':' (← minutes? cs))
  match cs with
  | '.' :: rest => if (rest.head?).any Char.isDigit then some (rest.dropWhile Char.isDigit) else none
  | cs => some cs

/-- The text behind the offset of a time, if there is one. -/
def skipOffset (cs : List Char) : List Char :=
  match cs with
  | [] => []
  | c :: rest =>
    if c = 'Z' ∨ c = 'z' then rest
    else if c = '+' ∨ c = '-' then (minutes? rest).getD cs
    else cs

/-- The text behind the time of a day, if there is one. -/
def skipTime (cs : List Char) : List Char :=
  match cs with
  | [] => []
  | c :: rest =>
    if c = 'T' ∨ c = 't' ∨ c = ' ' then ((time? rest).map skipOffset).getD cs else cs

/-- The text behind a date. -/
def date? (cs : List Char) : Option (List Char) := ((day? cs).map skipTime) <|> time? cs

/-- A number, a constant or a date, and the text behind it. -/
def scalar? (cs : List Char) : Option (Toml × List Char) :=
  match date? cs with
  | some rest => some (.date, rest)
  | none => (atom? (cs.takeWhile isAtomChar)).map fun value => (value, cs.dropWhile isAtomChar)

end RecordQuery.Toml
