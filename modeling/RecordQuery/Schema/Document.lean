import RecordQuery.Json.Document
import RecordQuery.Schema.Basic

/-!
# Schema documents

A schema document is a JSON list of class declarations. A declaration, a property and an index are
each written as an object, or as the list of their fields in order, where fields at the end may be
left out if they have a default. Members with other keys are skipped whatever they hold; a field
that is written twice spoils the document, and so does a field of the wrong shape.
-/

namespace RecordQuery

-- ---------------------------------------------------------------------------
-- Properties by themselves
-- ---------------------------------------------------------------------------

/-- The names of the property types with their meaning. -/
def PropertyType.names : List (String × PropertyType) :=
  PropertyType.all.map fun type => (type.name, type)

namespace PropertyDef

/-- The fields of a property definition given as an object, with what was found so far. -/
def ofMembers? (type : Option PropertyType) (linkedClass : Option String) :
    List (String × Json) → Except ShapeError PropertyDef
  | [] =>
    match type with
    | some type => .ok ⟨type, linkedClass⟩
    | none => .error (.missingField "type")
  | (key, value) :: rest => do
    match key with
    | "type" => ofMembers? (some (← Shape.named? PropertyType.names value)) linkedClass rest
    | "linkedClass" => ofMembers? type (← Shape.option? Shape.text? value) rest
    | _ => ofMembers? type linkedClass rest

/-- Decodes a property definition. -/
def ofJson? : Json → Except ShapeError PropertyDef
  | .object members => ofMembers? none none members
  | .array [] => .error (.tooShort 0 "PropertyDef" 2)
  | .array [type] => do return ⟨← Shape.named? PropertyType.names type, none⟩
  | .array (type :: linkedClass :: more) => do
    let type ← Shape.named? PropertyType.names type
    let linkedClass ← Shape.option? Shape.text? linkedClass
    if more.isEmpty then return ⟨type, linkedClass⟩
    else throw (.tooLong (more.length + 2))
  | found => .error (.wrongType found (.struct "PropertyDef"))

/-- The JSON value of a property definition. -/
def toJson (def_ : PropertyDef) : Json :=
  .object <| ("type", .string def_.type.name) ::
    (match def_.linkedClass with
      | none => []
      | some name => [("linkedClass", .string name)])

end PropertyDef

-- ---------------------------------------------------------------------------
-- Documents
-- ---------------------------------------------------------------------------

namespace Document

/-- A string. -/
def text? : Document → Option String
  | .string text => text
  | _ => none

/-- A boolean. -/
def boolean? : Document → Option Bool
  | .bool flag => some flag
  | _ => none

/-- A list. -/
def list? {α : Type} (decode : Document → Option α) : Document → Option (List α)
  | .array items => items.mapM decode
  | _ => none

/-- An object as a dictionary; of members with one key the last counts. -/
def dictionary? {α : Type} (decode : Document → Option α) :
    Document → Option (List (String × α))
  | .object members =>
    (members.mapM fun (member : Option String × Document) => do
      return (← member.1, ← decode member.2)).map Dictionary.ofList
  | _ => none

/-- A structure with the listed fields: for each field what is written for it. The keys must be
texts and no field may occur twice; there may not be more list entries than fields. -/
def fields? (names : List String) : Document → Option (List (String × Document))
  | .object members => do
    let keys ← members.mapM (·.1)
    if repeats names members then none
    else return keys.zip (members.map (·.2))
  | .array items => if items.length ≤ names.length then some (names.zip items) else none
  | _ => none

/-- A required field. -/
def required? {α : Type} (fields : List (String × Document)) (name : String)
    (decode : Document → Option α) : Option α :=
  (Dictionary.find? name fields).bind decode

/-- A field with a default. -/
def optional? {α : Type} (fields : List (String × Document)) (name : String)
    (decode : Document → Option α) (default : α) : Option α :=
  match Dictionary.find? name fields with
  | none => some default
  | some content => decode content

/-- A name, as a string or as the key of an object whose one member is null. -/
def name? : Document → Option String
  | .string text => text
  | .object [(key, .null)] => key
  | _ => none

/-- A property definition. -/
def propertyDef? (d : Document) : Option PropertyDef := do
  let fields ← fields? ["type", "linkedClass"] d
  let type ← required? fields "type" fun d => (name? d).bind PropertyType.ofName?
  let linkedClass ← optional? fields "linkedClass"
    (fun | .null => some none | d => (text? d).map some) none
  return ⟨type, linkedClass⟩

/-- An index. -/
def indexDef? (d : Document) : Option IndexDef := do
  let fields ← fields? ["name", "properties", "unique", "active"] d
  return {
    name := ← required? fields "name" text?
    properties := ← required? fields "properties" (list? text?)
    unique := ← optional? fields "unique" boolean? false
    active := ← optional? fields "active" boolean? false }

/-- A class declaration. -/
def classDecl? (d : Document) : Option ClassDecl := do
  let fields ← fields? ["name", "inherits", "properties", "indices", "isAbstract", "embedded"] d
  return {
    name := ← required? fields "name" text?
    parents := ← optional? fields "inherits" (list? text?) []
    properties := ← optional? fields "properties" (dictionary? propertyDef?) []
    indices := ← optional? fields "indices" (list? indexDef?) []
    isAbstract := ← optional? fields "isAbstract" boolean? false
    embedded := ← optional? fields "embedded" boolean? false }

end Document

/-- The schema of a document. -/
def Schema.ofText (text : String) : Result Schema :=
  match (Document.parse? text).bind (Document.list? Document.classDecl?) with
  | some decls => ofDeclarations decls
  | none => reject .malformedSchema

end RecordQuery
