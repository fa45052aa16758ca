import RecordQuery.Json.Basic
import RecordQuery.Decimal.Literal

/-!
# JSON documents

A document is what a JSON text says before anything is made of it: the members of an object stand in
the order of the text and a key may repeat, a number is a literal, and a string may fail to be a
text because it holds half of a surrogate pair.

* `Document.parse?` reads a text strictly: no comments, no byte order mark, no leading zeros, no
  unescaped control characters, and only the space, the tab and the two line ends between tokens.
* `Document.toJson?` makes a JSON value of a document whose nesting is bounded, whose numbers are in
  range and whose strings are texts. Of members with one key the last counts.

The text is read in two passes. `tokens?` is an automaton over the characters, and `assemble?` a
stack machine over the tokens whose stack holds the arrays and objects that are open.
-/

namespace RecordQuery

/-- The content of a JSON text. -/
inductive Document where
  | null
  | bool (flag : Bool)
  | number (literal : Literal)
  | string (text : Option String)
  | array (items : List Document)
  | object (members : List (Option String × Document))
  deriving Inhabited

namespace Document

-- ---------------------------------------------------------------------------
-- Tokens
-- ---------------------------------------------------------------------------

/-- A token of a JSON text. -/
inductive Token where
  | openArray
  | closeArray
  | openObject
  | closeObject
  | comma
  | colon
  | string (text : Option String)
  | atom (content : Document)

/-- Whether a code unit is the first half of a surrogate pair. -/
def isHighSurrogate (unit : Nat) : Bool := 0xD800 ≤ unit && unit < 0xDC00

/-- Whether a code unit is the second half of a surrogate pair. -/
def isLowSurrogate (unit : Nat) : Bool := 0xDC00 ≤ unit && unit < 0xE000

/-- The characters of a list of code units, where two halves side by side make one character; `none`
when a half stands alone. -/
def decodeUnits : List Nat → Option (List Char)
  | [] => some []
  | high :: rest =>
    if isHighSurrogate high then
      match rest with
      | low :: rest =>
        if isLowSurrogate low then
          (decodeUnits rest).map
            (Char.ofNat (0x10000 + (high - 0xD800) * 0x400 + (low - 0xDC00)) :: ·)
        else none
      | [] => none
    else if isLowSurrogate high then none
    else (decodeUnits rest).map (Char.ofNat high :: ·)

/-- What the automaton is in the middle of. The lists hold the latest character first. -/
inductive Scan where
  | between
  | word (letters : List Char)
  | string (units : List Nat)
  | escape (units : List Nat)
  | codeUnit (units : List Nat) (digits : List Char)

/-- The space between tokens. -/
def isSpace (c : Char) : Bool := c = ' ' || c = '\t' || c = '\n' || c = '\r'

/-- The characters of numbers and of the names of constants. -/
def isWordChar (c : Char) : Bool := c.isAlphanum || c = '-' || c = '+' || c = '.'

/-- The token of a word. -/
def wordToken? (letters : List Char) : Option Token :=
  match String.ofList letters with
  | "null" => some (.atom .null)
  | "true" => some (.atom (.bool true))
  | "false" => some (.atom (.bool false))
  | _ => (Literal.ofChars? letters).map fun l => .atom (.number l)

/-- The token of a mark. -/
def mark? : Char → Option Token
  | '[' => some .openArray
  | ']' => some .closeArray
  | '\x7b' => some .openObject
  | '\x7d' => some .closeObject
  | ',' => some .comma
  | ':' => some .colon
  | _ => none

/-- The value of a hexadecimal digit. -/
def hexDigit? (c : Char) : Option Nat :=
  if c.isDigit then some (c.toNat - '0'.toNat)
  else if 'a' ≤ c ∧ c ≤ 'f' then some (c.toNat - 'a'.toNat + 10)
  else if 'A' ≤ c ∧ c ≤ 'F' then some (c.toNat - 'A'.toNat + 10)
  else none

/-- The value of hexadecimal digits. -/
def hexValue? (digits : List Char) : Option Nat :=
  digits.foldlM (fun n c => (hexDigit? c).map (16 * n + ·)) 0

/-- The character that an escape letter stands for. -/
def escaped? : Char → Option Char
  | '"' => some '"'
  | '\\' => some '\\'
  | '/' => some '/'
  | 'b' => some '\x08'
  | 'f' => some '\x0c'
  | 'n' => some '\n'
  | 'r' => some '\r'
  | 't' => some '\t'
  | _ => none

/-- The state of the automaton: the tokens read so far, latest first, and what it is reading. -/
structure Scanner where
  done : List Token
  scan : Scan

namespace Scanner

/-- Between two tokens. -/
def start (done : List Token) (c : Char) : Option Scanner :=
  if isSpace c then some ⟨done, .between⟩
  else if c = '"' then some ⟨done, .string []⟩
  else if isWordChar c then some ⟨done, .word [c]⟩
  else (mark? c).map fun token => ⟨token :: done, .between⟩

/-- One more character. -/
def step : Scanner → Char → Option Scanner
  | ⟨done, .between⟩, c => start done c
  | ⟨done, .word letters⟩, c =>
    if isWordChar c then some ⟨done, .word (c :: letters)⟩
    else (wordToken? letters.reverse).bind fun token => start (token :: done) c
  | ⟨done, .string units⟩, c =>
    if c = '"' then
      some ⟨.string ((decodeUnits units.reverse).map String.ofList) :: done, .between⟩
    else if c = '\\' then some ⟨done, .escape units⟩
    else if c.toNat < 0x20 then none
    else some ⟨done, .string (c.toNat :: units)⟩
  | ⟨done, .escape units⟩, c =>
    if c = 'u' then some ⟨done, .codeUnit units []⟩
    else (escaped? c).map fun meant => ⟨done, .string (meant.toNat :: units)⟩
  | ⟨done, .codeUnit units digits⟩, c =>
    if digits.length < 3 then
      (hexDigit? c).map fun _ => ⟨done, .codeUnit units (c :: digits)⟩
    else (hexValue? (c :: digits).reverse).map fun unit => ⟨done, .string (unit :: units)⟩

/-- The tokens at the end of the text. -/
def finish : Scanner → Option (List Token)
  | ⟨done, .between⟩ => some done.reverse
  | ⟨done, .word letters⟩ =>
    (wordToken? letters.reverse).map fun token => (token :: done).reverse
  | _ => none

end Scanner

/-- The tokens of a text. -/
def tokens? (s : String) : Option (List Token) :=
  (s.toList.foldlM Scanner.step ⟨[], .between⟩).bind Scanner.finish

-- ---------------------------------------------------------------------------
-- Nesting
-- ---------------------------------------------------------------------------

/-- An open array, or an open object with the key whose value is being read. Lists hold the latest
entry first. -/
inductive Frame where
  | array (items : List Document)
  | object (members : List (Option String × Document)) (key : Option String)

/-- What may come next. -/
inductive Expectation where
  /-- A value. -/
  | value
  /-- A value or the end of the array just opened. -/
  | firstItem
  /-- A key or the end of the object just opened. -/
  | firstKey (members : List (Option String × Document))
  /-- A key. -/
  | nextKey (members : List (Option String × Document))
  /-- The colon behind a key. -/
  | colon (members : List (Option String × Document)) (key : Option String)
  /-- A comma or the end of the innermost array or object. -/
  | separator
  /-- Nothing: the value is complete. -/
  | nothing (content : Document)

/-- The state of the stack machine: the open arrays and objects, innermost first, and what may come
next. -/
structure Assembly where
  open_ : List Frame
  next : Expectation

namespace Assembly

/-- A value is complete and goes into the innermost frame. -/
def complete (content : Document) : List Frame → Assembly
  | [] => ⟨[], .nothing content⟩
  | .array items :: outer => ⟨.array (content :: items) :: outer, .separator⟩
  | .object members key :: outer => ⟨.object ((key, content) :: members) none :: outer, .separator⟩

/-- A value begins. -/
def begin (frames : List Frame) : Token → Option Assembly
  | .openArray => some ⟨.array [] :: frames, .firstItem⟩
  | .openObject => some ⟨frames, .firstKey []⟩
  | .string text => some (complete (.string text) frames)
  | .atom content => some (complete content frames)
  | _ => none

/-- One more token. -/
def step : Assembly → Token → Option Assembly
  | ⟨frames, .value⟩, token => begin frames token
  | ⟨.array _ :: outer, .firstItem⟩, .closeArray => some (complete (.array []) outer)
  | ⟨frames, .firstItem⟩, token => begin frames token
  | ⟨frames, .firstKey _⟩, .closeObject => some (complete (.object []) frames)
  | ⟨frames, .firstKey members⟩, .string key => some ⟨frames, .colon members key⟩
  | ⟨frames, .nextKey members⟩, .string key => some ⟨frames, .colon members key⟩
  | ⟨frames, .colon members key⟩, .colon => some ⟨.object members key :: frames, .value⟩
  | ⟨.array items :: outer, .separator⟩, .comma => some ⟨.array items :: outer, .value⟩
  | ⟨.array items :: outer, .separator⟩, .closeArray =>
    some (complete (.array items.reverse) outer)
  | ⟨.object members _ :: outer, .separator⟩, .comma => some ⟨outer, .nextKey members⟩
  | ⟨.object members _ :: outer, .separator⟩, .closeObject =>
    some (complete (.object members.reverse) outer)
  | _, _ => none

end Assembly

/-- The document that a list of tokens makes. -/
def assemble? (tokens : List Token) : Option Document :=
  (tokens.foldlM Assembly.step ⟨[], .value⟩).bind fun
    | ⟨[], .nothing content⟩ => some content
    | _ => none

/-- Reads a JSON text. -/
def parse? (s : String) : Option Document := (tokens? s).bind assemble?

-- ---------------------------------------------------------------------------
-- Values
-- ---------------------------------------------------------------------------

/-- The value of a number. -/
def numberValue? (l : Literal) : Option Json :=
  let float := l.read.map Json.float
  match l.integer? with
  | some n => if Json.leastInteger ≤ n ∧ n < Json.integerBound then some (.integer n) else float
  | none => float

mutual

/-- The JSON value of a document in which at most `depth` arrays and objects are open at once. -/
def toJson? (depth : Nat) : Document → Option Json
  | .null => some .null
  | .bool flag => some (.bool flag)
  | .number l => numberValue? l
  | .string text => text.map .string
  | .array items => if depth = 0 then none else (itemsToJson? (depth - 1) items).map .array
  | .object members =>
    if depth = 0 then none else (membersToJson? (depth - 1) members).map Json.ofMembers
  termination_by structural d => d

/-- The items of an array. -/
def itemsToJson? (depth : Nat) : List Document → Option (List Json)
  | [] => some []
  | item :: rest =>
    match toJson? depth item, itemsToJson? depth rest with
    | some value, some values => some (value :: values)
    | _, _ => none
  termination_by structural items => items

/-- The members of an object, in the order of the text. -/
def membersToJson? (depth : Nat) : List (Option String × Document) → Option (List (String × Json))
  | [] => some []
  | (key, content) :: rest =>
    match key, toJson? depth content, membersToJson? depth rest with
    | some key, some value, some values => some ((key, value) :: values)
    | _, _, _ => none
  termination_by structural members => members

end

/-- The most arrays and objects that may be open at once. -/
def depthLimit : Nat := 127

/-- Whether one of the listed keys occurs twice among the members. -/
def repeats (keys : List String) (members : List (Option String × Document)) : Bool :=
  keys.any fun key => 1 < (members.filter fun (k, _) => k = some key).length

end Document

end RecordQuery
