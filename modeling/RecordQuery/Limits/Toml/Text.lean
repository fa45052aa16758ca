import RecordQuery.Limits.Toml.Basic

/-!
# Texts and keys of TOML

Blanks, comments and line ends, the four kinds of strings, and keys of parts with points between
them.

A string stands between double quotes, where a backslash begins an escape, or between single
quotes, where every character is itself. Between triple quotes it may run over several lines: a line
end right behind the opening quotes does not count, a line end of two characters counts as one, and
a backslash at the end of a line joins it with the next text. One or two quotes in front of the
closing ones belong to the string.
-/

namespace RecordQuery.Toml

-- ---------------------------------------------------------------------------
-- Blanks and comments
-- ---------------------------------------------------------------------------

/-- The text without spaces and tabs at its start. -/
def skipSpaces (cs : List Char) : List Char := cs.dropWhile fun c => c = ' ' || c = '\t'

/-- Whether a character may stand in a comment or a string. -/
def isPrintable (c : Char) : Bool := c = '\t' || (0x20 ≤ c.toNat && c.toNat ≠ 0x7F)

/-- The text behind a line end. -/
def lineEnd? : List Char → Option (List Char)
  | '\n' :: rest => some rest
  | '\r' :: '\n' :: rest => some rest
  | _ => none

/-- The text behind the comment it may start with. -/
def skipComment : List Char → List Char
  | '#' :: rest => rest.dropWhile isPrintable
  | cs => cs

/-- The text behind blanks, comments and line ends; `fuel` bounds the number of lines. -/
def skipLines (fuel : Nat) (cs : List Char) : List Char :=
  let cs := skipComment (skipSpaces cs)
  match fuel, lineEnd? cs with
  | fuel + 1, some rest => skipLines fuel rest
  | _, _ => cs

/-- The text behind blanks and line ends; `fuel` bounds the number of lines. -/
def skipBlankLines (fuel : Nat) (cs : List Char) : List Char :=
  let cs := skipSpaces cs
  match fuel, lineEnd? cs with
  | fuel + 1, some rest => skipBlankLines fuel rest
  | _, _ => cs

-- ---------------------------------------------------------------------------
-- Strings
-- ---------------------------------------------------------------------------

/-- The value of a hexadecimal digit. -/
def hexDigit? (c : Char) : Option Nat :=
  if c.isDigit then some (c.toNat - '0'.toNat)
  else if 'a' ≤ c ∧ c ≤ 'f' then some (c.toNat - 'a'.toNat + 10)
  else if 'A' ≤ c ∧ c ≤ 'F' then some (c.toNat - 'A'.toNat + 10)
  else none

/-- The character of a hexadecimal number. -/
def hexChar? (digits : List Char) : Option Char := do
  let n ← digits.foldlM (fun n c => (hexDigit? c).map (16 * n + ·)) 0
  if h : n.isValidChar then some (Char.ofNatAux n h) else none

/-- The character that a letter behind a backslash stands for. -/
def escaped? : Char → Option Char
  | '"' => some '"'
  | '\\' => some '\\'
  | 'b' => some '\x08'
  | 'f' => some '\x0c'
  | 'n' => some '\n'
  | 'r' => some '\r'
  | 't' => some '\t'
  | _ => none

/-- The character of the escape whose backslash was in front, and the text behind it. -/
def escape? : List Char → Option (Char × List Char)
  | 'u' :: a :: b :: c :: d :: rest => (hexChar? [a, b, c, d]).map fun char => (char, rest)
  | 'U' :: a :: b :: c :: d :: e :: f :: g :: h :: rest =>
    (hexChar? [a, b, c, d, e, f, g, h]).map fun char => (char, rest)
  | c :: rest => (escaped? c).map fun char => (char, rest)
  | [] => none

/-- The form of a string: its quote, and whether three of them stand on each side. -/
structure StringForm where
  quote : Char
  triple : Bool

/-- The quotes in front of the closing ones, and the text behind those, if the string ends here. -/
def StringForm.close? (form : StringForm) (cs : List Char) : Option (List Char × List Char) :=
  let quotes := (cs.takeWhile (· = form.quote)).length
  if form.triple then
    if quotes < 3 then none
    else
      let extra := min (quotes - 3) 2
      some (cs.take extra, cs.drop (extra + 3))
  else if quotes = 0 then none
  else some ([], cs.drop 1)

/-- The next text of a string over several lines if the backslash in front joined two lines. -/
def StringForm.join? (form : StringForm) (cs : List Char) : Option (List Char) :=
  if form.triple then (lineEnd? (skipSpaces cs)).map fun rest => skipBlankLines rest.length rest
  else none

/-- The content of a string behind its opening quotes, and the text behind the closing ones. `done`
is what was read, latest first, and `fuel` bounds the number of characters. -/
def content? (form : StringForm) (fuel : Nat) (done cs : List Char) :
    Option (String × List Char) :=
  match fuel with
  | 0 => none
  | fuel + 1 =>
    match form.close? cs with
    | some (extra, rest) => some (String.ofList (done.reverse ++ extra), rest)
    | none =>
      match cs with
      | [] => none
      | c :: rest =>
        if form.quote = '"' ∧ c = '\\' then
          match form.join? rest with
          | some rest => content? form fuel done rest
          | none => (escape? rest).bind fun (c, rest) => content? form fuel (c :: done) rest
        else if isPrintable c then content? form fuel (c :: done) rest
        else if form.triple then
          (lineEnd? cs).bind fun rest => content? form fuel ('\n' :: done) rest
        else none

/-- A string on one line behind its opening quote, and the text behind it. -/
def lineString? (quote : Char) (cs : List Char) : Option (String × List Char) :=
  content? ⟨quote, false⟩ (cs.length + 1) [] cs

/-- A string behind its three opening quotes, and the text behind it. -/
def blockString? (quote : Char) (cs : List Char) : Option (String × List Char) :=
  content? ⟨quote, true⟩ (cs.length + 1) [] ((lineEnd? cs).getD cs)

/-- A string of any form, and the text behind it. -/
def string? : List Char → Option (String × List Char)
  | '"' :: '"' :: '"' :: rest => blockString? '"' rest
  | '"' :: rest => lineString? '"' rest
  | '\'' :: '\'' :: '\'' :: rest => blockString? '\'' rest
  | '\'' :: rest => lineString? '\'' rest
  | _ => none

-- ---------------------------------------------------------------------------
-- Keys
-- ---------------------------------------------------------------------------

/-- How many parts a key may have, and how many arrays and inline tables may be open at a time. -/
def depthLimit : Nat := 79

/-- Whether a character may stand in a key without quotes. -/
def isBareKeyChar (c : Char) : Bool := c.isAlphanum || c = '_' || c = '-'

/-- One part of a key, and the text behind it. -/
def keyPart? : List Char → Option (String × List Char)
  | '"' :: rest => lineString? '"' rest
  | '\'' :: rest => lineString? '\'' rest
  | cs =>
    match cs.takeWhile isBareKeyChar with
    | [] => none
    | name => some (String.ofList name, cs.dropWhile isBareKeyChar)

/-- Parts with points between them, and the text behind them. `fuel` bounds their number. -/
def keyParts? (fuel : Nat) (cs : List Char) : Option (List String × List Char) := do
  let (part, rest) ← keyPart? (skipSpaces cs)
  match fuel, skipSpaces rest with
  | fuel + 1, '.' :: rest =>
    let (parts, rest) ← keyParts? fuel rest
    return (part :: parts, rest)
  | _, rest => return ([part], rest)

/-- A key, and the text behind it. -/
def key? (cs : List Char) : Option (List String × List Char) :=
  (keyParts? cs.length cs).filter fun (parts, _) => parts.length ≤ depthLimit

end RecordQuery.Toml
