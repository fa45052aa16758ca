import RecordQuery.Text.Blank
import RecordQuery.Text.Numeral

/-!
# Limits

The limits that every accepted request keeps, with their defaults. Limits are `valid` when rows,
words and neighborhoods have at least size one and the default depth of a neighborhood does not
exceed the greatest depth; `validate` names the first fault in that order.

Environment variables override limits. A variable counts if its name starts with
`Limits.variablePrefix` and continues with the name of a limit in capital letters; a later one
overrides an earlier one.
-/

namespace RecordQuery

/-- The limits of requests. -/
structure Limits where
  /-- The most rows that a request may ask for. -/
  maxLimit : UInt64 := 1000
  /-- The deepest expansion of linked records. -/
  maxNeighbors : UInt32 := 4
  /-- The greatest depth of a traversal. -/
  maxDepth : UInt32 := 50
  /-- The depth of a neighborhood that does not give one. -/
  relatedNodeDepth : UInt32 := 3
  /-- The least length of a word in a full-text search. -/
  minWordSize : UInt64 := 4
  /-- What is logged. -/
  logLevel : String := "info"
  deriving DecidableEq, Repr, Inhabited

/-- What is wrong with limits. -/
inductive LimitFault where
  | noRows
  | noWordSize
  | noNodeDepth
  | depthsCross (relatedNodeDepth maxDepth : UInt32)
  deriving DecidableEq, Repr

/-- The text of a fault. -/
def LimitFault.message : LimitFault → String
  | .noRows => "max_limit must be at least 1"
  | .noWordSize => "min_word_size must be at least 1"
  | .noNodeDepth => "related_node_depth must be at least 1"
  | .depthsCross relatedNodeDepth maxDepth =>
    s!"related_node_depth ({relatedNodeDepth}) exceeds max_depth ({maxDepth})"

/-- Why there are no limits. -/
inductive LimitsError where
  /-- The file cannot be read. -/
  | unreadable (path reason : String)
  /-- The text, of a file if a path is given, does not describe limits. -/
  | malformed (path : Option String)
  /-- An environment variable does not hold a number in range. -/
  | invalidVariable (key value : String)
  | invalid (fault : LimitFault)
  deriving DecidableEq, Repr

/-- The text of an error. -/
def LimitsError.message : LimitsError → String
  | .unreadable path reason => "failed to read query config " ++ path ++ ": " ++ reason
  | .malformed none => "failed to parse query config: not a table of limits"
  | .malformed (some path) => "failed to parse query config " ++ path ++ ": not a table of limits"
  | .invalidVariable key value =>
    "environment override " ++ key ++ "=" ++ value ++ " is not a valid number"
  | .invalid fault => "invalid query config: " ++ fault.message

namespace Limits

/-- The limits if they are valid, and else the first fault. -/
def validate (limits : Limits) : Except LimitsError Limits :=
  if limits.maxLimit = 0 then .error (.invalid .noRows)
  else if limits.minWordSize = 0 then .error (.invalid .noWordSize)
  else if limits.relatedNodeDepth = 0 then .error (.invalid .noNodeDepth)
  else if limits.maxDepth < limits.relatedNodeDepth then
    .error (.invalid (.depthsCross limits.relatedNodeDepth limits.maxDepth))
  else .ok limits

/-- How the names of the variables that override limits start. -/
def variablePrefix : String := "GKB_QUERY_"

/-- The variables that override limits. -/
def variableNames : List String :=
  ["MAX_LIMIT", "MAX_NEIGHBORS", "MAX_DEPTH", "RELATED_NODE_DEPTH", "MIN_WORD_SIZE",
    "LOG_LEVEL"].map (variablePrefix ++ ·)

/-- The name that follows the common start of the variables. -/
def limitName? (key : String) : Option String :=
  if variablePrefix.toList.isPrefixOf key.toList then
    some (String.ofList (key.toList.drop variablePrefix.length))
  else none

/-- The number below a bound that the value of a variable holds, blanks around it dropped. -/
def number? (bound : Nat) (value : String) : Option Nat :=
  (Text.signedNatural? (Text.trimChars value.toList)).filter (· < bound)

/-- Sets the limit of a name to the value of a variable. A name that is not a limit changes nothing;
`none` means that the value is not a number in range. -/
def set? (limits : Limits) (name value : String) : Option Limits :=
  match name with
  | "MAX_LIMIT" =>
    (number? UInt64.size value).map fun n => { limits with maxLimit := UInt64.ofNat n }
  | "MAX_NEIGHBORS" =>
    (number? UInt32.size value).map fun n => { limits with maxNeighbors := UInt32.ofNat n }
  | "MAX_DEPTH" =>
    (number? UInt32.size value).map fun n => { limits with maxDepth := UInt32.ofNat n }
  | "RELATED_NODE_DEPTH" =>
    (number? UInt32.size value).map fun n => { limits with relatedNodeDepth := UInt32.ofNat n }
  | "MIN_WORD_SIZE" =>
    (number? UInt64.size value).map fun n => { limits with minWordSize := UInt64.ofNat n }
  | "LOG_LEVEL" => some { limits with logLevel := value }
  | _ => some limits

/-- Applies variables one after another. -/
def override (limits : Limits) : List (String × String) → Except LimitsError Limits
  | [] => .ok limits
  | (key, value) :: rest =>
    match limitName? key with
    | none => override limits rest
    | some name =>
      match limits.set? name value with
      | none => .error (.invalidVariable key value)
      | some changed => override changed rest

/-- The valid limits after the variables are applied. -/
def withOverrides (limits : Limits) (environment : List (String × String)) :
    Except LimitsError Limits := do
  (← limits.override environment).validate

end Limits

end RecordQuery
