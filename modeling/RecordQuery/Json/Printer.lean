import RecordQuery.Json.Basic

/-!
# JSON text

Two written forms of a JSON value. `compact` has no space between tokens. `pretty` puts every item
and every member on a line of its own, two spaces deeper than the bracket around it, and keeps an
empty array or object on one line.

In a string, quotes, backslashes and the control characters below the space are escaped, the
common ones by a letter and the others by four hexadecimal digits; nothing else is.
-/

namespace RecordQuery.Json

/-- The characters that stand for one character of a string. -/
def escapeChar : Char → List Char
  | '"' => ['\\', '"']
  | '\\' => ['\\', '\\']
  | '\x08' => ['\\', 'b']
  | '\x0c' => ['\\', 'f']
  | '\n' => ['\\', 'n']
  | '\r' => ['\\', 'r']
  | '\t' => ['\\', 't']
  | c =>
    if c.toNat < 0x20 then
      ['\\', 'u', '0', '0', (c.toNat / 16).digitChar, (c.toNat % 16).digitChar]
    else [c]

/-- The text of a string with its quotes. -/
def stringText (s : String) : String :=
  String.ofList ('"' :: s.toList.flatMap escapeChar ++ ['"'])

/-- The text of a value that holds no other values. -/
def atomText : Json → String
  | .null => "null"
  | .bool flag => if flag then "true" else "false"
  | .integer n => toString n
  | .float x => floatText x
  | .string s => stringText s
  | .array _ => "[]"
  | .object _ => "\x7b\x7d"

mutual

/-- The text without spaces. -/
def compact : Json → String
  | .array items => "[" ++ ",".intercalate (compactItems items) ++ "]"
  | .object members => "\x7b" ++ ",".intercalate (compactMembers members) ++ "\x7d"
  | atom => atomText atom
  termination_by structural j => j

/-- The texts of the items of an array. -/
def compactItems : List Json → List String
  | [] => []
  | item :: rest => compact item :: compactItems rest
  termination_by structural items => items

/-- The texts of the members of an object. -/
def compactMembers : List (String × Json) → List String
  | [] => []
  | (key, value) :: rest => (stringText key ++ ":" ++ compact value) :: compactMembers rest
  termination_by structural members => members

end

/-- The start of a line at a depth. -/
def indentation (depth : Nat) : String := String.ofList (List.replicate (2 * depth) ' ')

/-- Texts on lines of their own between two brackets. -/
def bracketed (depth : Nat) (opening closing : String) (texts : List String) : String :=
  if texts.isEmpty then opening ++ closing
  else
    let lines := texts.map fun text => indentation (depth + 1) ++ text
    opening ++ "\n" ++ ",\n".intercalate lines ++ "\n" ++ indentation depth ++ closing

mutual

/-- The text with one item on a line, at a depth. -/
def prettyAt (depth : Nat) : Json → String
  | .array items => bracketed depth "[" "]" (prettyItems (depth + 1) items)
  | .object members => bracketed depth "\x7b" "\x7d" (prettyMembers (depth + 1) members)
  | atom => atomText atom
  termination_by structural j => j

/-- The texts of the items of an array. -/
def prettyItems (depth : Nat) : List Json → List String
  | [] => []
  | item :: rest => prettyAt depth item :: prettyItems depth rest
  termination_by structural items => items

/-- The texts of the members of an object. -/
def prettyMembers (depth : Nat) : List (String × Json) → List String
  | [] => []
  | (key, value) :: rest =>
    (stringText key ++ ": " ++ prettyAt depth value) :: prettyMembers depth rest
  termination_by structural members => members

end

/-- The text with one item on a line. -/
def pretty (j : Json) : String := prettyAt 0 j

end RecordQuery.Json
