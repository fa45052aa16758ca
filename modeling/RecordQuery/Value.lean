import RecordQuery.Json.Printer
import RecordQuery.RecordId

/-!
# Values

The loosely typed values of request literals, bound parameters and stored records. A map is a
dictionary. A link to a record is a string that spells its id, or a map that carries the id, again
as a link, under `@rid`.

* `Value.ofJson` and `Value.toJson` pass between values and JSON; an integer that does not fit a
  signed word becomes a floating point number.
* `Value.link?` is the record that a value links to.
* `Value.same` is equality of values, for which the two zeros are one number.
-/

namespace RecordQuery

/-- A value. -/
inductive Value where
  | null
  | bool (flag : Bool)
  | int (n : Int64)
  | float (x : Binary64)
  | string (text : String)
  | list (items : List Value)
  | map (entries : List (String × Value))
  deriving Inhabited

namespace Value

/-- The shapes of values. -/
inductive Kind where
  | null
  | boolean
  | integer
  | float
  | string
  | list
  | map
  deriving DecidableEq, Repr

/-- The name of a shape in messages. -/
def Kind.name : Kind → String
  | .null => "null"
  | .boolean => "boolean"
  | .integer => "integer"
  | .float => "float"
  | .string => "string"
  | .list => "list"
  | .map => "map"

/-- The shape of a value. -/
def kind : Value → Kind
  | .null => .null
  | .bool _ => .boolean
  | .int _ => .integer
  | .float _ => .float
  | .string _ => .string
  | .list _ => .list
  | .map _ => .map

/-- Whether a value is null. -/
def isNull : Value → Bool
  | .null => true
  | _ => false

/-- The text of a string. -/
def text? : Value → Option String
  | .string s => some s
  | _ => none

/-- The value that spells the id of a record. -/
def ofRecordId (id : RecordId) : Value := .string id.text

mutual

/-- The record that a value links to. -/
def link? (form : RecordId.Form) : Value → Option RecordId
  | .string s => RecordId.parse? form s
  | .map entries => linkAt? form entries
  | _ => none
  termination_by structural v => v

/-- The record that the entry `@rid` links to. -/
def linkAt? (form : RecordId.Form) : List (String × Value) → Option RecordId
  | [] => none
  | (key, value) :: rest => if key = "@rid" then link? form value else linkAt? form rest
  termination_by structural entries => entries

end

mutual

/-- Equality of values. -/
def same : Value → Value → Bool
  | .null, .null => true
  | .bool a, .bool b => a = b
  | .int a, .int b => a = b
  | .float a, .float b => a.same b
  | .string a, .string b => a = b
  | .list a, .list b => sameItems a b
  | .map a, .map b => sameEntries a b
  | _, _ => false
  termination_by structural a => a

/-- Equality of lists, item by item. -/
def sameItems : List Value → List Value → Bool
  | [], [] => true
  | a :: as, b :: bs => same a b && sameItems as bs
  | _, _ => false
  termination_by structural as => as

/-- Equality of maps, entry by entry. -/
def sameEntries : List (String × Value) → List (String × Value) → Bool
  | [], [] => true
  | (k, a) :: as, (l, b) :: bs => k = l && same a b && sameEntries as bs
  | _, _ => false
  termination_by structural as => as

end

-- ---------------------------------------------------------------------------
-- JSON
-- ---------------------------------------------------------------------------

mutual

/-- The value of a JSON value. -/
def ofJson : Json → Value
  | .null => .null
  | .bool flag => .bool flag
  | .integer n =>
    if Int64.minValue.toInt ≤ n ∧ n ≤ Int64.maxValue.toInt then .int (Int64.ofInt n)
    else .float (Binary64.ofInt n)
  | .float x => .float x
  | .string s => .string s
  | .array items => .list (ofItems items)
  | .object members => .map (ofMembers members)
  termination_by structural j => j

/-- The values of the items of an array. -/
def ofItems : List Json → List Value
  | [] => []
  | item :: rest => ofJson item :: ofItems rest
  termination_by structural items => items

/-- The values of the members of an object. -/
def ofMembers : List (String × Json) → List (String × Value)
  | [] => []
  | (key, value) :: rest => (key, ofJson value) :: ofMembers rest
  termination_by structural members => members

end

mutual

/-- The JSON value of a value. -/
def toJson : Value → Json
  | .null => .null
  | .bool flag => .bool flag
  | .int n => .integer n.toInt
  | .float x => .float x
  | .string s => .string s
  | .list items => .array (toItems items)
  | .map entries => .object (toMembers entries)
  termination_by structural v => v

/-- The items of the array of a list. -/
def toItems : List Value → List Json
  | [] => []
  | item :: rest => toJson item :: toItems rest
  termination_by structural items => items

/-- The members of the object of a map. -/
def toMembers : List (String × Value) → List (String × Json)
  | [] => []
  | (key, value) :: rest => (key, toJson value) :: toMembers rest
  termination_by structural entries => entries

end

/-- The JSON text of a value. -/
def text (v : Value) : String := v.toJson.compact

end Value

end RecordQuery
