import RecordQuery.Query
import RecordQuery.Store.Session
import RecordQuery.Visibility

/-!
# Selecting records

`select` hands out a statement, trims the answer to what the caller gets to see, and then checks the
number of records if the caller needs an exact one. Fewer records count as none found, more as too
many.
-/

namespace RecordQuery

/-- How an answer is treated. -/
structure SelectOptions where
  /-- The exact number of records that is needed. -/
  exactly : Option Nat := none
  /-- Whether deleted records are kept. -/
  history : Bool := false
  /-- Whom the selection runs for; without a viewer every record may be read. -/
  viewer : Option Viewer := none

/-- Checks the number of records. -/
def checkCount (statement : Statement) (expected : Option Nat) (records : List Record) :
    Result (List Record) :=
  match expected with
  | none => .ok records
  | some n =>
    if records.length < n then
      .error (.noRecordFound (.tooFew n records.length) (some statement.display))
    else if records.length ≠ n then
      .error (.multipleRecordsFound (.unexpected n records.length) (some statement.display))
    else .ok records

/-- What the caller gets of an answer. -/
def receive (statement : Statement) (options : SelectOptions) (records : List Record) :
    Result (List Record) :=
  checkCount statement options.exactly
    (Record.trimAll options.history options.viewer records)

/-- The records of a statement. -/
def select (statement : Statement) (options : SelectOptions) : StoreM (List Record) := do
  let records ← StoreM.execute statement
  StoreM.ofResult (receive statement options records)

/-- The records of a query, which says itself whether deleted records are kept. -/
def Query.select (query : Query) (exactly : Option Nat) (viewer : Option Viewer) :
    StoreM (List Record) :=
  RecordQuery.select query.toStatement { exactly, history := query.history, viewer }

/-- The records of a list of ids, with linked records expanded to a depth. Every id has to lead to a
record that is shown. -/
def selectList (schema : Schema) (limits : Limits) (ids : List String) (neighbors : Option UInt32)
    (options : SelectOptions) : StoreM (List Record) := do
  let request := { Request.ofRecords ids with neighbors, history := options.history }
  let query ← StoreM.ofResult (Query.ofRequest schema limits request)
  select query.toStatement { options with exactly := some ids.length }

end RecordQuery
