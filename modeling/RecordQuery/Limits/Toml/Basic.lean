import RecordQuery.Dictionary

/-!
# TOML tables

A TOML document is a table of values by key. A table is *implicit* while it only stands inside the
header of a deeper one, *dotted* when dotted keys make it, *defined* when it has a header of its
own, and *closed* when it is written inline.

Every key is given once. A header may define an implicit table but no other. A dotted key passes
through dotted and implicit tables and through the latest of a list of tables, but the table it
leads to has to be dotted.
-/

namespace RecordQuery

/-- How a table came to be. -/
inductive TableOrigin where
  | implicit
  | dotted
  | defined
  | closed
  deriving DecidableEq, Repr

/-- A TOML value. -/
inductive Toml where
  | integer (n : Int)
  | float
  | boolean (flag : Bool)
  | string (text : String)
  /-- A date, a time, or both. -/
  | date
  | array (items : List Toml)
  | table (origin : TableOrigin) (entries : List (String × Toml))
  /-- The tables of headers in double brackets, latest first. -/
  | tables (latest : List (String × Toml)) (earlier : List Toml)
  deriving Inhabited

namespace Toml

/-- The entries of a table. -/
abbrev Entries := List (String × Toml)

/-- Changes the table at the end of a header path. Missing tables on the way are implicit, and a
list of tables stands for its latest one. -/
def atHeader (change : Entries → Option Entries) : List String → Entries → Option Entries
  | [], entries => change entries
  | key :: path, entries =>
    match Dictionary.find? key entries with
    | none => do
      return Dictionary.insert key (.table .implicit (← atHeader change path [])) entries
    | some (.table origin inner) =>
      if origin = .closed then none
      else do return Dictionary.insert key (.table origin (← atHeader change path inner)) entries
    | some (.tables latest earlier) => do
      return Dictionary.insert key (.tables (← atHeader change path latest) earlier) entries
    | some _ => none

/-- Opens the table of a header. -/
def defineTable (key : String) (entries : Entries) : Option Entries :=
  match Dictionary.find? key entries with
  | none => some (Dictionary.insert key (.table .defined []) entries)
  | some (.table .implicit inner) => some (Dictionary.insert key (.table .defined inner) entries)
  | some _ => none

/-- Opens one more table of a header in double brackets. -/
def appendTable (key : String) (entries : Entries) : Option Entries :=
  match Dictionary.find? key entries with
  | none => some (Dictionary.insert key (.tables [] []) entries)
  | some (.tables latest earlier) =>
    some (Dictionary.insert key (.tables [] (.table .defined latest :: earlier)) entries)
  | some _ => none

/-- Gives a key its value; the key must be new. -/
def assign (key : String) (value : Toml) (entries : Entries) : Option Entries :=
  if Dictionary.contains key entries then none else some (Dictionary.insert key value entries)

/-- Gives a dotted key its value. -/
def assignDotted (value : Toml) : List String → Entries → Option Entries
  | [], _ => none
  | [key], entries => assign key value entries
  | key :: path, entries =>
    let leadsOn : Bool := 1 < path.length
    match Dictionary.find? key entries with
    | none => do
      return Dictionary.insert key (.table .dotted (← assignDotted value path [])) entries
    | some (.table origin inner) =>
      if origin = .dotted ∨ (origin = .implicit ∧ leadsOn) then do
        return Dictionary.insert key (.table origin (← assignDotted value path inner)) entries
      else none
    | some (.tables latest earlier) =>
      if leadsOn then do
        return Dictionary.insert key (.tables (← assignDotted value path latest) earlier) entries
      else none
    | some _ => none

end Toml

end RecordQuery
