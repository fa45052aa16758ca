import RecordQuery.Value

/-!
# Property types

The storage types of properties and what each allows: `isIterable` types hold collections,
`isOrderable` types have an order, `isLink` types point to records, and `accepts` says which values
may be compared with a property. Null may be compared with every property.
-/

namespace RecordQuery

/-- The storage type of a property. -/
inductive PropertyType where
  | string
  | integer
  | long
  | double
  | boolean
  | datetime
  | link
  | linkList
  | linkSet
  | embedded
  | embeddedList
  | embeddedSet
  | embeddedMap
  | any
  deriving DecidableEq, Repr, Inhabited

namespace PropertyType

/-- Every type, in the order in which messages list them. -/
def all : List PropertyType :=
  [.string, .integer, .long, .double, .boolean, .datetime, .link, .linkList, .linkSet, .embedded,
    .embeddedList, .embeddedSet, .embeddedMap, .any]

/-- The name in messages. -/
def label : PropertyType → String
  | .string => "String"
  | .integer => "Integer"
  | .long => "Long"
  | .double => "Double"
  | .boolean => "Boolean"
  | .datetime => "Datetime"
  | .link => "Link"
  | .linkList => "LinkList"
  | .linkSet => "LinkSet"
  | .embedded => "Embedded"
  | .embeddedList => "EmbeddedList"
  | .embeddedSet => "EmbeddedSet"
  | .embeddedMap => "EmbeddedMap"
  | .any => "Any"

/-- The name in schema documents, in small letters. -/
def name (type : PropertyType) : String := String.ofList (type.label.toList.map Char.toLower)

/-- The type of a name. -/
def ofName? (name : String) : Option PropertyType := all.find? fun type => type.name = name

/-- Whether values are collections. -/
def isIterable : PropertyType → Bool
  | .linkList | .linkSet | .embeddedList | .embeddedSet | .any => true
  | _ => false

/-- Whether values have an order. -/
def isOrderable : PropertyType → Bool
  | .string | .integer | .long | .double | .datetime | .any => true
  | _ => false

/-- Whether values point to other records. -/
def isLink : PropertyType → Bool
  | .link | .linkList | .linkSet => true
  | _ => false

/-- Whether a value of this shape may be compared with the property. Strings and maps count for a
link only if they name a persistent record; other values count for every collection. -/
def accepts (type : PropertyType) (value : Value) : Bool :=
  match type, value with
  | _, .null | .any, _ => true
  | .string, .string _ => true
  | .integer, .int _ | .long, .int _ | .datetime, .int _ => true
  | .datetime, .string _ => true
  | .double, .int _ | .double, .float _ => true
  | .boolean, .bool _ => true
  | .embedded, .map _ | .embeddedMap, .map _ => true
  | type, value =>
    match value with
    | .string _ | .map _ =>
      if type.isLink then (value.link? .persistent).isSome else type.isIterable
    | _ => type.isIterable

theorem ofName?_name (type : PropertyType) : ofName? type.name = some type := by
  cases type <;> decide

theorem accepts_null (type : PropertyType) : type.accepts .null = true := by
  cases type <;> rfl

end PropertyType

end RecordQuery
