import RecordQuery.Decimal.Shortest
import RecordQuery.Dictionary

/-!
# JSON values

A JSON value as the library works with it: the members of an object are a dictionary, integers and
floating point numbers are told apart, and a number is an integer only if it fits a signed or an
unsigned word of 64 bits.
-/

namespace RecordQuery

/-- A JSON value. -/
inductive Json where
  | null
  | bool (flag : Bool)
  | integer (n : Int)
  | float (x : Binary64)
  | string (text : String)
  | array (items : List Json)
  | object (members : List (String × Json))
  deriving Inhabited

namespace Json

/-- The least integer of a signed word of 64 bits. -/
def leastInteger : Int := Int64.minValue.toInt

/-- One more than the greatest integer of an unsigned word of 64 bits. -/
def integerBound : Int := UInt64.size

/-- How floating point numbers are written: without a power of ten from `0.00001` up to, but not
including, `10 ^ 16`. -/
def numberLayout : Layout := ⟨-5, 16⟩

/-- The text of a floating point number. -/
def floatText (x : Binary64) : String := numberLayout.text x

/-- The object of a list of members; of members with one key the last counts. -/
def ofMembers (members : List (String × Json)) : Json := .object (Dictionary.ofList members)

/-- The array of the strings of a list. -/
def strings (texts : List String) : Json := .array (texts.map .string)

/-- The value under an optional; nothing is null. -/
def ofOption {α : Type} (f : α → Json) : Option α → Json
  | none => .null
  | some a => f a

end Json

end RecordQuery
