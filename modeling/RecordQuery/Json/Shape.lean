import RecordQuery.Json.Printer
import RecordQuery.Text.Quoted
import RecordQuery.Value

/-!
# Shapes of JSON values

Requests, records and property definitions are decoded from JSON values. `ShapeError` lists the ways
in which a value can fail to have the shape asked for, and `ShapeError.message` words each of them.
The functions of the namespace `Shape` decode the simple shapes: texts, booleans, words of 32 and 64
bits, lists, and names out of a closed list.
-/

namespace RecordQuery

/-- What a value was expected to be. -/
inductive Shape where
  | word32
  | word64
  | boolean
  | text
  | list
  /-- A name, as a string or as the key of an object with one member. -/
  | name
  /-- A structure, as an object or as the list of its fields. -/
  | struct (title : String)
  | nothing
  deriving DecidableEq, Repr

/-- A value does not have the shape asked for. -/
inductive ShapeError where
  | wrongType (found : Json) (expected : Shape)
  | outOfRange (n : Int) (expected : Shape)
  | unknownField (name : String) (known : List String)
  | missingField (name : String)
  | unknownName (name : String) (known : List String)
  | notOneKey
  /-- A target that is neither a string nor a list of strings. -/
  | noTarget
  /-- A list of fields that ends before a required one. -/
  | tooShort (count : Nat) (struct : String) (fields : Nat)
  /-- A list of fields with more entries than fields. -/
  | tooLong (count : Nat)
  /-- Filters that are neither an object nor a list. -/
  | notAFilter (found : Value.Kind)
  | junctionNeedsList (key : String)
  | operatorNotText
  | negateNotBoolean
  /-- An explicit comparison that does not name one property. -/
  | propertyCount (found : Nat)
  | unsupportedOperator (text : String)
  | invalidRecordId (text : String)
  /-- A nested request with a wrong shape. -/
  | nested (cause : ShapeError)

/-- The words for an expected shape. -/
def Shape.description : Shape → String
  | .word32 => "u32"
  | .word64 => "u64"
  | .boolean => "a boolean"
  | .text => "a string"
  | .list => "a sequence"
  | .name => "string or map"
  | .struct title => "struct " ++ title
  | .nothing => "unit"

/-- The words for a value that was found. -/
def Json.description : Json → String
  | .null => "null"
  | .bool flag => "boolean \x60" ++ (if flag then "true" else "false") ++ "\x60"
  | .integer n => "integer \x60" ++ toString n ++ "\x60"
  | .float x => "floating point \x60" ++ Json.floatText x ++ "\x60"
  | .string s => "string " ++ Text.quoted s
  | .array _ => "sequence"
  | .object _ => "map"

namespace ShapeError

/-- A name between grave accents. -/
def ticked (name : String) : String := "\x60" ++ name ++ "\x60"

/-- The words for a choice between names. -/
def choice (names : List String) : String :=
  "expected one of " ++ ", ".intercalate (names.map ticked)

/-- The text of an error. -/
def message : ShapeError → String
  | .wrongType found expected =>
    "invalid type: " ++ found.description ++ ", expected " ++ expected.description
  | .outOfRange n expected =>
    "invalid value: " ++ (Json.integer n).description ++ ", expected " ++ expected.description
  | .unknownField name known => "unknown field " ++ ticked name ++ ", " ++ choice known
  | .missingField name => "missing field " ++ ticked name
  | .unknownName name known => "unknown variant " ++ ticked name ++ ", " ++ choice known
  | .notOneKey => "invalid value: map, expected map with a single key"
  | .noTarget => "data did not match any variant of untagged enum TargetSpec"
  | .tooShort count struct fields =>
    s!"invalid length {count}, expected struct {struct} with {fields} elements"
  | .tooLong count => s!"invalid length {count}, expected fewer elements in array"
  | .notAFilter found => "filters must be an object or a list, found " ++ found.name
  | .junctionNeedsList key => key ++ " expects a list of filters"
  | .operatorNotText => "operator must be a string"
  | .negateNotBoolean => "negate must be a boolean"
  | .propertyCount found =>
    s!"a filter with operator/negate must name exactly one property, found {found}"
  | .unsupportedOperator text => "unsupported operator (" ++ text ++ ")"
  | .invalidRecordId text => "invalid record id (" ++ text ++ ")"
  | .nested cause => "invalid subquery: " ++ cause.message

end ShapeError

namespace Shape

/-- A string. -/
def text? : Json → Except ShapeError String
  | .string s => .ok s
  | found => .error (.wrongType found .text)

/-- A boolean. -/
def boolean? : Json → Except ShapeError Bool
  | .bool flag => .ok flag
  | found => .error (.wrongType found .boolean)

/-- A natural number below a bound. -/
def natural? (bound : Nat) (shape : Shape) : Json → Except ShapeError Nat
  | .integer n =>
    if 0 ≤ n ∧ n < bound then .ok n.toNat else .error (.outOfRange n shape)
  | found => .error (.wrongType found shape)

/-- A word of 32 bits. -/
def word32? (j : Json) : Except ShapeError UInt32 :=
  (natural? UInt32.size .word32 j).map UInt32.ofNat

/-- A word of 64 bits. -/
def word64? (j : Json) : Except ShapeError UInt64 :=
  (natural? UInt64.size .word64 j).map UInt64.ofNat

/-- A list of strings. -/
def texts? : Json → Except ShapeError (List String)
  | .array items => items.mapM text?
  | found => .error (.wrongType found .list)

/-- Something, or nothing for null. -/
def option? {α : Type} (decode : Json → Except ShapeError α) : Json → Except ShapeError (Option α)
  | .null => .ok none
  | j => (decode j).map some

/-- The meaning of a name out of a closed list. -/
def meaning? {α : Type} (known : List (String × α)) (word : String) : Except ShapeError α :=
  match Dictionary.find? word known with
  | some a => .ok a
  | none => .error (.unknownName word (known.map (·.1)))

/-- A name out of a closed list, as a string or as the key of an object whose one member is null. -/
def named? {α : Type} (known : List (String × α)) : Json → Except ShapeError α
  | .string word => meaning? known word
  | .object [(word, content)] => do
    let a ← meaning? known word
    match content with
    | .null => return a
    | found => throw (.wrongType found .nothing)
  | .object _ => .error .notOneKey
  | found => .error (.wrongType found .name)

end Shape

end RecordQuery
