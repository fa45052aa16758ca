import RecordQuery.Failure
import RecordQuery.Record
import RecordQuery.Statement

/-!
# Sessions with the store

The library never talks to a store by itself. A `Session` is a computation that may hand out
statements and goes on when it is given their answers, so what it does is fixed for every store: it
is run against a list of answers (`Session.run`), and the run tells the result, the statements that
were handed out, and the answers that are left.
-/

namespace RecordQuery

/-- What the store answers to a statement. -/
abbrev Answer := Except StoreFailure (List Record)

/-- A computation that asks a store. -/
inductive Session (α : Type) where
  | done (result : α)
  | ask (statement : Statement) (next : Answer → Session α)

/-- The end of a run. -/
structure Run (α : Type) where
  result : α
  /-- The statements that were handed out, in order. -/
  calls : List Statement
  /-- The answers that were not needed. -/
  left : List Answer

namespace Session

variable {α β : Type}

/-- Goes on with the result of a session. -/
def bind (s : Session α) (f : α → Session β) : Session β :=
  match s with
  | .done result => f result
  | .ask statement next => .ask statement fun answer => bind (next answer) f

instance : Monad Session where
  pure := .done
  bind := bind

/-- Hands out one statement. -/
def send (statement : Statement) : Session Answer := .ask statement .done

/-- Runs a session against answers given in order. When there are none left the store answers with
no records. -/
def run (s : Session α) (answers : List Answer) : Run α :=
  match s with
  | .done result => ⟨result, [], answers⟩
  | .ask statement next =>
    let rest := run (next (answers.headD (.ok []))) answers.tail
    { rest with calls := statement :: rest.calls }

theorem run_bind (s : Session α) (f : α → Session β) (answers : List Answer) :
    run (s.bind f) answers =
      let first := run s answers
      let second := run (f first.result) first.left
      { second with calls := first.calls ++ second.calls } := by
  induction s generalizing answers with
  | done result => rfl
  | ask statement next ih => simp [bind, run, ih]

end Session

/-- A session that may fail. -/
abbrev StoreM := ExceptT QueryError Session

/-- A result that needs no store. -/
def StoreM.ofResult {α : Type} (result : Result α) : StoreM α := ExceptT.mk (.done result)

/-- Hands out one statement and takes its records. -/
def StoreM.execute (statement : Statement) : StoreM (List Record) := do
  match ← Session.send statement with
  | .ok records => return records
  | .error failure => throw (QueryError.ofStore failure statement.text)

end RecordQuery
