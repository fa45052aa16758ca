import RecordQuery.Store.Select

/-!
# Users

The record of a user is looked up by name, with the groups of the user expanded. There has to be
exactly one.
-/

namespace RecordQuery

/-- The statement that looks up an active user. -/
def userStatement (name : String) : Statement :=
  let (placeholder, b) := ({} : Binder).bind (.string name)
  ⟨"SELECT *, groups:\x7b*, @rid, @class\x7d from User where name = :" ++ placeholder ++ " AND " ++
    absenceText deletionTime, b.params⟩

/-- The only one of the users found. -/
def onlyUser (name : String) (statement : Statement) : List Record → Result Record
  | [user] => .ok user
  | [] => .error (.noRecordFound (.noUser name) (some statement.display))
  | users =>
    .error (.multipleRecordsFound (.ambiguousUser name users.length) (some statement.display))

/-- The record of an active user. -/
def selectUser (name : String) : StoreM Record := do
  let statement := userStatement name
  let users ← select statement { history := true }
  StoreM.ofResult (onlyUser name statement users)

end RecordQuery
