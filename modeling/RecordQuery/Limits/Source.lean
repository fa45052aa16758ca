import RecordQuery.Limits.Basic
import RecordQuery.Limits.Toml.Document

/-!
# Where limits come from

Limits are read from the table `query` of a TOML text. A limit that is left out keeps its default,
and other keys and tables are skipped. The table may also be written as the list of its values in
order, and a date in its place counts as a table without limits.

`Limits.ofText` reads and validates a text. `Limits.load` is how the program starts: the text of a
file, if there is one, then the variables of the environment, and then validation.
-/

namespace RecordQuery

namespace Limits

/-- The number below a bound that a TOML value holds. -/
def natural? (bound : Nat) : Toml → Option Nat
  | .integer n => if 0 ≤ n ∧ n < bound then some n.toNat else none
  | _ => none

/-- Sets the limit of a key in a text. Unknown keys change nothing. -/
def setField? (limits : Limits) (key : String) (value : Toml) : Option Limits :=
  match key with
  | "max_limit" =>
    (natural? UInt64.size value).map fun n => { limits with maxLimit := UInt64.ofNat n }
  | "max_neighbors" =>
    (natural? UInt32.size value).map fun n => { limits with maxNeighbors := UInt32.ofNat n }
  | "max_depth" =>
    (natural? UInt32.size value).map fun n => { limits with maxDepth := UInt32.ofNat n }
  | "related_node_depth" =>
    (natural? UInt32.size value).map fun n => { limits with relatedNodeDepth := UInt32.ofNat n }
  | "min_word_size" =>
    (natural? UInt64.size value).map fun n => { limits with minWordSize := UInt64.ofNat n }
  | "log_level" =>
    match value with
    | .string level => some { limits with logLevel := level }
    | _ => none
  | _ => some limits

/-- The keys of the limits in a text, in order. -/
def fieldKeys : List String :=
  ["max_limit", "max_neighbors", "max_depth", "related_node_depth", "min_word_size", "log_level"]

/-- Sets limits one after another. -/
def setFields? (limits : Limits) : List (String × Toml) → Option Limits
  | [] => some limits
  | (key, value) :: rest => (limits.setField? key value).bind (setFields? · rest)

/-- The limits of a document. -/
def ofDocument? (document : Toml.Entries) : Option Limits :=
  match Dictionary.find? "query" document with
  | none => some {}
  | some (.table _ entries) => setFields? {} entries
  | some (.array items) => setFields? {} (fieldKeys.zip items)
  | some .date => some {}
  | some _ => none

/-- The limits of a text, not validated. -/
def read? (text : String) : Option Limits := (Toml.parse? text).bind ofDocument?

/-- The valid limits of a text. -/
def ofText (text : String) : Except LimitsError Limits :=
  match read? text with
  | none => .error (.malformed none)
  | some limits => limits.validate

/-- The outcome of reading a file: its text, or why it cannot be read. -/
abbrev FileText := Except String String

/-- The limits at the start of the program. `file` is the path of the file with the limits and its
text; without one the defaults are taken. -/
def load (file : Option (String × FileText)) (environment : List (String × String)) :
    Except LimitsError Limits := do
  let base ← match file with
    | none => pure {}
    | some (path, .error reason) => throw (.unreadable path reason)
    | some (path, .ok text) =>
      match read? text with
      | none => throw (.malformed (some path))
      | some limits => pure limits
  base.withOverrides environment

end Limits

end RecordQuery
