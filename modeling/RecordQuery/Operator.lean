import RecordQuery.Text.Blank

/-!
# Comparison operators

The operators of a comparison, with the symbol that a request writes and the keyword that a
statement carries. They differ for full-text search only.

`parse?` forgives blanks around a symbol, small letters, and two more spellings: `==`, and the
keyword of full-text search. Every symbol and every keyword reads back (`parse?_symbol`,
`parse?_keyword`).
-/

namespace RecordQuery

/-- A comparison operator. -/
inductive Operator where
  /-- Equality; against null it asks for absence. -/
  | equal
  | less
  | atMost
  | greater
  | atLeast
  /-- The property is one of the listed values. -/
  | isIn
  /-- The collection holds the value. -/
  | contains
  /-- The collection holds every listed value. -/
  | containsAll
  /-- The collection holds at least one listed value. -/
  | containsAny
  /-- The words of a full-text search. -/
  | containsText
  deriving DecidableEq, Repr, Inhabited

namespace Operator

/-- The symbol in requests. -/
def symbol : Operator → String
  | .equal => "="
  | .less => "<"
  | .atMost => "<="
  | .greater => ">"
  | .atLeast => ">="
  | .isIn => "IN"
  | .contains => "CONTAINS"
  | .containsAll => "CONTAINSALL"
  | .containsAny => "CONTAINSANY"
  | .containsText => "~"

/-- The keyword in statements. -/
def keyword : Operator → String
  | .containsText => "CONTAINSTEXT"
  | operator => operator.symbol

/-- Whether the operand is a list. -/
def takesList : Operator → Bool
  | .isIn | .containsAll | .containsAny => true
  | _ => false

/-- Whether the operator compares by order. -/
def isRange : Operator → Bool
  | .less | .atMost | .greater | .atLeast => true
  | _ => false

/-- Reads a symbol. -/
def parse? (s : String) : Option Operator :=
  match String.ofList ((Text.trimChars s.toList).map Char.toUpper) with
  | "=" | "==" => some .equal
  | "<" => some .less
  | "<=" => some .atMost
  | ">" => some .greater
  | ">=" => some .atLeast
  | "IN" => some .isIn
  | "CONTAINS" => some .contains
  | "CONTAINSALL" => some .containsAll
  | "CONTAINSANY" => some .containsAny
  | "~" | "CONTAINSTEXT" => some .containsText
  | _ => none

theorem parse?_symbol (operator : Operator) : parse? operator.symbol = some operator := by
  cases operator <;> decide

theorem parse?_keyword (operator : Operator) : parse? operator.keyword = some operator := by
  cases operator <;> decide

end Operator

end RecordQuery
