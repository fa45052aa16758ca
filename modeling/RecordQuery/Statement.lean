import RecordQuery.Binder

/-!
# Statements

A statement is a text with placeholders and the values bound to them. In the text a placeholder is
a colon, the word `param` and as many digits as follow; without a digit behind it the word is plain
text.

* `segments` cuts a text into single characters and placeholders.
* `Statement.placeholders` lists the placeholder names in the order of the text.
* `Statement.display` writes the JSON text of its value in the place of every placeholder that is
  bound. It looks at the text once, so a value that looks like a placeholder stays as it is.
* `Statement.same` compares two statements up to blanks.
-/

namespace RecordQuery

/-- A piece of the text of a statement. -/
inductive Segment where
  | character (c : Char)
  /-- A placeholder with the digits of its number. -/
  | placeholder (digits : List Char)
  deriving DecidableEq, Repr

namespace Segment

/-- How a placeholder starts. -/
def mark : List Char := ":param".toList

/-- The digits of the placeholder that a text starts with. -/
def placeholder? (cs : List Char) : Option (List Char) :=
  if mark.isPrefixOf cs then
    match (cs.drop mark.length).takeWhile Char.isDigit with
    | [] => none
    | digits => some digits
  else none

/-- The pieces of a text behind its first `skip` characters. -/
def scan (skip : Nat) : List Char → List Segment
  | [] => []
  | c :: rest =>
    match skip with
    | skip + 1 => scan skip rest
    | 0 =>
      match placeholder? (c :: rest) with
      | some digits => .placeholder digits :: scan (mark.length + digits.length - 1) rest
      | none => .character c :: scan 0 rest

/-- The name of a placeholder. -/
def placeholderName (digits : List Char) : String := Binder.stem ++ String.ofList digits

/-- The text that a piece was cut from. -/
def source : Segment → List Char
  | .character c => [c]
  | .placeholder digits => mark ++ digits

end Segment

/-- The pieces of a text. -/
def segments (text : String) : List Segment := Segment.scan 0 text.toList

/-- A text with placeholders and the values bound to them. -/
structure Statement where
  text : String
  params : Params := []
  deriving Inhabited

namespace Statement

/-- The names of the placeholders in the text. -/
def placeholders (s : Statement) : List String :=
  (segments s.text).filterMap fun
    | .character _ => none
    | .placeholder digits => some (Segment.placeholderName digits)

/-- The characters that a piece becomes when placeholders give way to their values. -/
def displaySegment (params : Params) : Segment → List Char
  | .character c => [c]
  | .placeholder digits =>
    match Dictionary.find? (Segment.placeholderName digits) params with
    | some value => value.text.toList
    | none => (Segment.placeholder digits).source

/-- The text with values in the place of placeholders. -/
def display (s : Statement) : String :=
  String.ofList ((segments s.text).flatMap (displaySegment s.params))

/-- The text with single spaces between words. -/
def normalized (s : Statement) : String := Text.squeeze s.text

/-- Whether two statements have the same words and the same values. -/
def same (s t : Statement) : Bool :=
  s.normalized = t.normalized && Value.sameEntries s.params t.params

/-- The JSON value of a statement: its text and its parameters. -/
def toJson (s : Statement) : Json :=
  .object [("query", .string s.text), ("params", .object (Value.toMembers s.params))]

end Statement

end RecordQuery
