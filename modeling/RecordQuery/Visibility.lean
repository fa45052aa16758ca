import RecordQuery.Record

/-!
# Visibility

Which records a caller gets to see. A record is hidden when it is deleted and the history is not
asked for, or when the viewer may not read it.

`Record.trimAll` drops the hidden records of an answer. A linked record that came with its
properties is a map with an id or a class; hidden ones are dropped from the properties of the
records that stay, from their lists and from their maps, at any depth. What is hidden is judged
before anything inside it is dropped.

`ReadPolicy` lets the members of a group read classes.
-/

namespace RecordQuery

/-- Whom a selection runs for, and which records that user may read. -/
structure Viewer where
  user : Record
  mayRead : Record → Record → Bool

/-- Whether a viewer may read a record. -/
def Viewer.sees (viewer : Viewer) (record : Record) : Bool := viewer.mayRead viewer.user record

/-- A viewer in messages: the id of the user. -/
def Viewer.description (viewer : Viewer) : String :=
  let id := match viewer.user.id with
    | none => "None"
    | some id =>
      "Some(RecordId \x7b cluster: " ++ toString id.cluster.toInt ++ ", position: " ++
        toString id.position.toInt ++ " \x7d)"
  "Viewer \x7b user: " ++ id ++ ", .. \x7d"

-- ---------------------------------------------------------------------------
-- Reading by group
-- ---------------------------------------------------------------------------

/-- The classes that the members of each group may read. -/
structure ReadPolicy where
  readable : List (String × List String) := []
  deriving Inhabited

namespace ReadPolicy

/-- The class name that stands for every class. -/
def everyClass : String := "*"

/-- Lets the members of a group read classes. -/
def grant (policy : ReadPolicy) (group : String) (classNames : List String) : ReadPolicy :=
  let granted := (Dictionary.find? group policy.readable).getD []
  ⟨Dictionary.insert group (granted ++ classNames) policy.readable⟩

/-- The group that an entry of the groups of a user names: by its name, or by a record with one. -/
def groupName? : Value → Option String
  | .string name => some name
  | .map entries => (Dictionary.find? "name" entries).bind Value.text?
  | _ => none

/-- The groups of a user. -/
def groupNames (user : Record) : List String :=
  match user.get? "groups" with
  | some (.list groups) => groups.filterMap groupName?
  | _ => []

/-- Whether the members of a group may read a class. -/
def groupMayRead (policy : ReadPolicy) (className group : String) : Bool :=
  match Dictionary.find? group policy.readable with
  | none => false
  | some classNames => classNames.contains className || classNames.contains everyClass

/-- Whether a user may read a record. Records without a class may be read by everyone. -/
def mayRead (policy : ReadPolicy) (user record : Record) : Bool :=
  match record.className with
  | none => true
  | some className => (groupNames user).any (policy.groupMayRead className)

/-- A viewer under this policy. -/
def viewer (policy : ReadPolicy) (user : Record) : Viewer := ⟨user, policy.mayRead⟩

end ReadPolicy

-- ---------------------------------------------------------------------------
-- Trimming
-- ---------------------------------------------------------------------------

/-- Whether the entries of a map are those of a record. -/
def Value.isRecord (entries : List (String × Value)) : Bool :=
  Dictionary.contains "@rid" entries || Dictionary.contains "@class" entries

mutual

/-- A value without the records that are not kept; nothing if it is such a record itself. -/
def Value.trim? (keep : Record → Bool) : Value → Option Value
  | .map entries =>
    if Value.isRecord entries && !keep (Record.ofEntries entries) then none
    else some (.map (Value.trimEntries keep entries))
  | .list items => some (.list (Value.trimItems keep items))
  | .null => some .null
  | .bool flag => some (.bool flag)
  | .int n => some (.int n)
  | .float x => some (.float x)
  | .string s => some (.string s)
  termination_by structural v => v

/-- The items of a list without the records that are not kept. -/
def Value.trimItems (keep : Record → Bool) : List Value → List Value
  | [] => []
  | item :: rest => (Value.trim? keep item).toList ++ Value.trimItems keep rest
  termination_by structural items => items

/-- The entries of a map without the records that are not kept. -/
def Value.trimEntries (keep : Record → Bool) : List (String × Value) → List (String × Value)
  | [] => []
  | (key, value) :: rest =>
    ((Value.trim? keep value).map fun v => (key, v)).toList ++ Value.trimEntries keep rest
  termination_by structural entries => entries

end

namespace Record

/-- Whether a record is shown. -/
def isShown (history : Bool) (viewer : Option Viewer) (r : Record) : Bool :=
  (history || !r.isDeleted) && viewer.all fun v => v.sees r

/-- The record with the records that are not kept dropped from its properties. -/
def trim (keep : Record → Bool) (r : Record) : Record :=
  { r with properties := Value.trimEntries keep r.properties }

/-- The records that are shown, trimmed. -/
def trimAll (history : Bool) (viewer : Option Viewer) (records : List Record) : List Record :=
  let keep := isShown history viewer
  (records.filter keep).map (trim keep)

end Record

end RecordQuery
