import RecordQuery.Json.Document
import RecordQuery.Json.Shape

/-!
# Records

A record of the store has an envelope and properties. The envelope holds its id, its class, the time
at which it was deleted, and for an edge its two ends; rows that count records have none of these.

A record is read in two ways. `Record.ofJson?` decodes a row of the store, where null in the
envelope means absent. `Record.ofEntries` takes apart a map inside a value, a linked record that
came with its properties.
-/

namespace RecordQuery

/-- A record of the store. -/
structure Record where
  id : Option RecordId := none
  className : Option String := none
  /-- The time of deletion. -/
  deletedAt : Option Value := none
  /-- The record that an edge comes from. -/
  source : Option Value := none
  /-- The record that an edge leads to. -/
  destination : Option Value := none
  properties : List (String × Value) := []
  deriving Inhabited

namespace Record

/-- The value of a property. -/
def get? (r : Record) (property : String) : Option Value := Dictionary.find? property r.properties

/-- The text of a property. -/
def text? (r : Record) (property : String) : Option String := (r.get? property).bind Value.text?

/-- The name of the record. -/
def name? (r : Record) : Option String := r.text? "name"

/-- The record that a property links to. -/
def link? (r : Record) (property : String) : Option RecordId :=
  (r.get? property).bind (Value.link? .stored)

/-- Whether the record is deleted. -/
def isDeleted (r : Record) : Bool :=
  match r.deletedAt with
  | none | some .null => false
  | some _ => true

/-- The keys of the envelope. -/
def envelopeKeys : List String := ["@rid", "@class", "deletedAt", "out", "in"]

/-- The record of the entries of a map. -/
def ofEntries (entries : List (String × Value)) : Record where
  id := (Dictionary.find? "@rid" entries).bind (Value.link? .stored)
  className := (Dictionary.find? "@class" entries).bind Value.text?
  deletedAt := (Dictionary.find? "deletedAt" entries).filter fun v => !v.isNull
  source := Dictionary.find? "out" entries
  destination := Dictionary.find? "in" entries
  properties := entries.filter fun (key, _) => !envelopeKeys.contains key

/-- Decodes a string unless it is null. -/
def optionalText? (j : Json) : Except ShapeError (Option String) := Shape.option? Shape.text? j

/-- Decodes the id of a record unless it is null. -/
def optionalId? (j : Json) : Except ShapeError (Option RecordId) := do
  match ← optionalText? j with
  | none => return none
  | some text =>
    match RecordId.parse? .stored text with
    | some id => return some id
    | none => throw (.invalidRecordId text)

/-- The value of a JSON value unless it is null. -/
def optionalValue? : Json → Option Value
  | .null => none
  | j => some (Value.ofJson j)

/-- Decodes the members of a row one after another. -/
def ofMembers? (r : Record) : List (String × Json) → Except ShapeError Record
  | [] => .ok r
  | (key, j) :: rest => do
    match key with
    | "@rid" => ofMembers? { r with id := ← optionalId? j } rest
    | "@class" => ofMembers? { r with className := ← optionalText? j } rest
    | "deletedAt" => ofMembers? { r with deletedAt := optionalValue? j } rest
    | "out" => ofMembers? { r with source := optionalValue? j } rest
    | "in" => ofMembers? { r with destination := optionalValue? j } rest
    | key =>
      let properties := Dictionary.insert key (Value.ofJson j) r.properties
      ofMembers? { r with properties } rest

/-- Decodes a row. -/
def ofJson? : Json → Except ShapeError Record
  | .object members => ofMembers? {} members
  | found => .error (.wrongType found (.struct "Record"))

/-- The rows of a JSON text that is a list of records. -/
def listOfText? (text : String) : Option (List Record) := do
  let document ← Document.parse? text
  match document with
  | .array rows =>
    let repeated := rows.any fun
      | .object members => Document.repeats envelopeKeys members
      | _ => false
    if repeated then none
    else
      match ← document.toJson? Document.depthLimit with
      | .array items => (items.mapM ofJson?).toOption
      | _ => none
  | _ => none

/-- The JSON value of a record: what the envelope holds, then the properties. -/
def toJson (r : Record) : Json :=
  let member (key : String) (value : Option Json) : List (String × Json) :=
    (value.map fun j => (key, j)).toList
  .object <|
    member "@rid" (r.id.map fun id => .string id.text) ++
    member "@class" (r.className.map .string) ++
    member "deletedAt" (r.deletedAt.map Value.toJson) ++
    member "out" (r.source.map Value.toJson) ++
    member "in" (r.destination.map Value.toJson) ++
    Value.toMembers r.properties

end Record

end RecordQuery
