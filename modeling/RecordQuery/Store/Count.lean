import RecordQuery.Store.Select

/-!
# Counting records

Records are counted class by class, one statement for each class, either as a whole or split by the
record that their property `source` links to. Deleted records are left out by the statement itself
unless the history is asked for.
-/

namespace RecordQuery

/-- The number of records of a class. Counts have no upper bound here; words of 64 bits hold them as
long as the rows of the class sum below `2 ^ 64`. -/
inductive ClassCount where
  | total (count : Nat)
  /-- By source; records without one stand under `null`. -/
  | bySource (counts : List (String × Nat))
  deriving DecidableEq, Repr, Inhabited

/-- What is counted. -/
structure CountOptions where
  /-- The classes; without a list the terminal classes of the schema. -/
  classNames : Option (List String) := none
  bySource : Bool := false
  history : Bool := false

/-- The statement that counts a class. -/
def countStatement (className : String) (bySource history : Bool) : Statement :=
  let active := if history then "" else " WHERE " ++ absenceText deletionTime
  if bySource then
    ⟨"SELECT source, count(*) AS cnt FROM " ++ className ++ active ++ " GROUP BY source", []⟩
  else ⟨"SELECT count(*) AS cnt FROM " ++ className ++ active, []⟩

/-- The count in a row. -/
def rowCount (row : Record) : Nat :=
  match row.get? "cnt" with
  | some (.int n) => n.toInt.toNat
  | _ => 0

/-- The source of a row. -/
def sourceKey (row : Record) : String :=
  match row.get? "source" with
  | none => "null"
  | some value =>
    match value.link? .stored with
    | some id => id.text
    | none => value.text?.getD "null"

/-- The count that the rows of a class come to. Of two rows with one source the later counts. -/
def ClassCount.ofRows (bySource : Bool) (rows : List Record) : ClassCount :=
  if bySource then
    .bySource (Dictionary.ofList (rows.map fun row => (sourceKey row, rowCount row)))
  else .total ((rows.map rowCount).foldl Nat.add 0)

/-- Counts classes one after another. -/
def countEach (options : CountOptions) (counts : List (String × ClassCount)) :
    List String → StoreM (List (String × ClassCount))
  | [] => return counts
  | className :: rest => do
    let statement := countStatement className options.bySource options.history
    let rows ← select statement { history := true }
    countEach options (Dictionary.insert className (.ofRows options.bySource rows) counts) rest

/-- The checked names of the classes to count. -/
def countedClasses (schema : Schema) : Option (List String) → Result (List String)
  | none => .ok schema.terminalClasses
  | some classNames => classNames.mapM fun name => (schema.require name).map (·.name)

/-- The counts by class. -/
def selectCounts (schema : Schema) (options : CountOptions) :
    StoreM (List (String × ClassCount)) := do
  countEach options [] (← StoreM.ofResult (countedClasses schema options.classNames))

end RecordQuery
