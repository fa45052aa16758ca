import RecordQuery.Failure
import RecordQuery.Json.Document
import RecordQuery.Request.Basic

/-!
# Requests in JSON

A request is a JSON object of its fields, or the list of their values in order. Criteria are
written in one of these forms:

* a list, whose criteria must all hold;
* an object with the one key `AND` or `OR` and a list of criteria;
* an object with `operator` or `negate`, and exactly one property with its operand;
* an object of properties with their operands, which must all hold.

An operand that is an object with the key `target` is a nested request, any other is a literal.

An object is looked at in the order of its keys, and the first fault is reported. `Request.ofText`
reads a JSON text, where no field may be given twice.
-/

namespace RecordQuery

namespace Request

/-- The fields of a request in order. -/
def fieldNames : List String :=
  ["target", "filters", "neighbors", "queryType", "edges", "direction", "depth",
    "returnProperties", "orderBy", "orderByDirection", "skip", "limit", "history", "count"]

/-- Decodes a target. -/
def target? : Json → Except ShapeError WantedTarget
  | .string className => .ok (.named className)
  | .array items =>
    match items.mapM Shape.text? with
    | .ok ids => .ok (.records ids)
    | .error _ => .error .noTarget
  | _ => .error .noTarget

/-- Sets a field other than the criteria. -/
def setField? (r : Request) (name : String) (value : Json) : Except ShapeError Request :=
  match name with
  | "target" => do return { r with target := ← target? value }
  | "neighbors" => do return { r with neighbors := ← Shape.option? Shape.word32? value }
  | "queryType" => do
    return { r with style := ← Shape.option? (Shape.named? TraversalStyle.names) value }
  | "edges" => do return { r with edges := ← Shape.option? Shape.texts? value }
  | "direction" => do
    return { r with direction := ← Shape.option? (Shape.named? Direction.names) value }
  | "depth" => do return { r with depth := ← Shape.option? Shape.word32? value }
  | "returnProperties" => do
    return { r with returnProperties := ← Shape.option? Shape.texts? value }
  | "orderBy" => do return { r with orderBy := ← Shape.option? Shape.texts? value }
  | "orderByDirection" => do
    return { r with orderByDirection := ← Shape.option? (Shape.named? SortDirection.names) value }
  | "skip" => do return { r with skip := ← Shape.word64? value }
  | "limit" => do return { r with limit := ← Shape.option? Shape.word64? value }
  | "history" => do return { r with history := ← Shape.boolean? value }
  | "count" => do return { r with count := ← Shape.boolean? value }
  | _ => .error (.unknownField name fieldNames)

end Request

/-- The junction of two or more criteria, or the only one. -/
def Criterion.ofLeaves : List WantedComparison → Criterion
  | [comparison] => .leaf comparison
  | comparisons => .all (comparisons.map .leaf)

/-- The keys of an explicit comparison that are not the property. -/
def Criterion.isModifier (key : String) : Bool := key = "operator" || key = "negate"

/-- The junction that an object writes: its only key is the name of one. -/
def Criterion.junction? : List (String × Json) → Option Criterion.Junction
  | [(key, _)] => if key = "AND" then some .all else if key = "OR" then some .any else none
  | _ => none

/-- The operator of an explicit comparison. -/
def Criterion.operator? (members : List (String × Json)) :
    Except ShapeError (Option Operator) :=
  match Dictionary.find? "operator" members with
  | none | some .null => .ok none
  | some (.string symbol) =>
    match Operator.parse? symbol with
    | some operator => .ok (some operator)
    | none => .error (.unsupportedOperator symbol)
  | some _ => .error .operatorNotText

/-- Whether an explicit comparison is negated. -/
def Criterion.negated? (members : List (String × Json)) : Except ShapeError Bool :=
  match Dictionary.find? "negate" members with
  | none | some .null => .ok false
  | some (.bool flag) => .ok flag
  | some _ => .error .negateNotBoolean

/-- What an explicit comparison says besides its one property: the operator and the negation. -/
def Criterion.modifiers? (members : List (String × Json)) :
    Except ShapeError (Option Operator × Bool) := do
  let operator ← Criterion.operator? members
  let negated ← Criterion.negated? members
  let properties := (members.filter fun (key, _) => !Criterion.isModifier key).length
  if properties = 1 then return (operator, negated)
  else throw (.propertyCount properties)

mutual

/-- Decodes criteria. -/
def Criterion.ofJson? : Json → Except ShapeError Criterion
  | .array items => do return .all (← Criterion.ofItems? items)
  | .object members =>
    match Criterion.junction? members with
    | some junction => do return junction.join (← Criterion.junctionItems? members)
    | none =>
      if members.any fun (key, _) => Criterion.isModifier key then do
        let (operator, negated) ← Criterion.modifiers? members
        let (property, operand) ← Criterion.property? members
        return .leaf ⟨property, operator, operand, negated⟩
      else do return .ofLeaves (← Criterion.leaves? members)
  | found => .error (.notAFilter (Value.ofJson found).kind)
  termination_by structural j => j

/-- Decodes the criteria of a list. -/
def Criterion.ofItems? : List Json → Except ShapeError (List Criterion)
  | [] => .ok []
  | item :: rest => do
    let criterion ← Criterion.ofJson? item
    return criterion :: (← Criterion.ofItems? rest)
  termination_by structural items => items

/-- Decodes the criteria of a junction. -/
def Criterion.junctionItems? : List (String × Json) → Except ShapeError (List Criterion)
  | (_, .array items) :: _ => Criterion.ofItems? items
  | (key, _) :: _ => .error (.junctionNeedsList key)
  | [] => .ok []
  termination_by structural members => members

/-- Decodes properties with their operands. -/
def Criterion.leaves? : List (String × Json) → Except ShapeError (List WantedComparison)
  | [] => .ok []
  | (property, value) :: rest => do
    let operand ← WantedOperand.ofJson? value
    return ⟨property, none, operand, false⟩ :: (← Criterion.leaves? rest)
  termination_by structural members => members

/-- Decodes the first property of an explicit comparison with its operand. -/
def Criterion.property? : List (String × Json) → Except ShapeError (String × WantedOperand)
  | [] => .error (.propertyCount 0)
  | (key, value) :: rest =>
    if Criterion.isModifier key then Criterion.property? rest
    else do return (key, ← WantedOperand.ofJson? value)
  termination_by structural members => members

/-- Decodes an operand. -/
def WantedOperand.ofJson? : Json → Except ShapeError WantedOperand
  | .object members =>
    if Dictionary.contains "target" members then
      match Request.ofMembers? members (.ofClass "") with
      | .ok request => .ok (.request request)
      | .error cause => .error (.nested cause)
    else .ok (.literal (.map (Value.ofMembers members)))
  | j => .ok (.literal (Value.ofJson j))
  termination_by structural j => j

/-- Decodes the fields of a request one after another. -/
def Request.ofMembers? : List (String × Json) → Request → Except ShapeError Request
  | [], r => .ok r
  | (name, value) :: rest, r =>
    if name = "filters" then
      match value with
      | .null => Request.ofMembers? rest r
      | value => do
        let criteria ← Criterion.ofJson? value
        Request.ofMembers? rest { r with filters := some criteria }
    else do
      let r ← r.setField? name value
      Request.ofMembers? rest r
  termination_by structural members => members

end

namespace Request

/-- Decodes a request. -/
def ofJson? : Json → Except ShapeError Request
  | .object members => do
    let r ← ofMembers? members (.ofClass "")
    if Dictionary.contains "target" members then return r
    else throw (.missingField "target")
  | .array items => do
    if items.isEmpty then throw (.tooShort 0 "QuerySpec" fieldNames.length)
    let r ← ofMembers? (fieldNames.zip items) (.ofClass "")
    if items.length ≤ fieldNames.length then return r
    else throw (.tooLong items.length)
  | found => .error (.wrongType found (.struct "QuerySpec"))

/-- The request of a JSON value. -/
def ofJson (j : Json) : Result Request :=
  match ofJson? j with
  | .ok r => .ok r
  | .error cause => reject (.requestShape cause)

/-- The fields whose value is a name. -/
def nameFields : List String := ["queryType", "direction", "orderByDirection"]

/-- Whether a name is written as an object with two members or more. -/
def isCrowded (field : Option String) (content : Document) : Bool :=
  match content with
  | .object (_ :: _ :: _) => nameFields.any fun name => field = some name
  | _ => false

/-- Whether a document gives a field twice, or a key that may stand only once in the object of a
name. -/
def isRepetitive : Document → Bool
  | .object members =>
    Document.repeats fieldNames members ||
      members.any fun (field, content) => isCrowded field content
  | .array items => (fieldNames.zip items).any fun (field, content) => isCrowded field content
  | _ => false

/-- The request of a JSON text. -/
def ofText (text : String) : Result Request :=
  let value? := (Document.parse? text).bind fun document =>
    if isRepetitive document then none else document.toJson? Document.depthLimit
  match value? with
  | some j => ofJson j
  | none => reject .malformedRequest

end Request

/-- The criteria of a JSON value. -/
def Criterion.ofJson (j : Json) : Result Criterion :=
  match Criterion.ofJson? j with
  | .ok criterion => .ok criterion
  | .error cause => reject (.filterShape cause)

end RecordQuery
