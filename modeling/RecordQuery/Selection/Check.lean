import RecordQuery.Limits.Basic
import RecordQuery.Schema.Basic
import RecordQuery.Selection.Basic

/-!
# Checked comparisons

A comparison is admitted if the class has the property and the operator fits its type and the
operand. Every record also has two identity attributes, its id and its class.

* `Literal operands`: `fits` says when an operator may compare a property of a type with a value,
  apart from the words of a full-text search, which `checkWords` looks at.
* `Nested selections`: `allowsSelection` says when an operator may compare a property of a type with
  the records of a selection.
* `defaultOperator` and `defaultSelectionOperator` choose the operator that a request leaves open.
-/

namespace RecordQuery

/-- The attributes that every record has. -/
def identityAttributes : List (String × PropertyType) := [("@rid", .link), ("@class", .string)]

/-- Whether a name is an attribute that every record has. -/
def isIdentityAttribute (name : String) : Bool := Dictionary.contains name identityAttributes

/-- The type of a property or identity attribute of a class. -/
def ClassModel.comparedType (model : ClassModel) (property : String) : Result PropertyType :=
  match Dictionary.find? property identityAttributes with
  | some type => .ok type
  | none => (model.requireProperty property).map (·.type)

namespace Operator

/-- Whether an operator may compare a property of a type with a value. -/
def fits (operator : Operator) (type : PropertyType) (value : Value) : Bool :=
  match operator with
  | .equal =>
    match value with
    | .list _ => type.isIterable
    | value => type.accepts value
  | .less | .atMost | .greater | .atLeast =>
    type.isOrderable && !value.isNull && type.accepts value
  | .isIn =>
    match value with
    | .list items => (!type.isIterable || type = .any) && items.all type.accepts
    | _ => false
  | .contains =>
    match value with
    | .list _ => false
    | _ => type.isIterable
  | .containsAll | .containsAny =>
    match value with
    | .list _ => type.isIterable
    | _ => false
  | .containsText =>
    match value with
    | .string _ => type = .string || type = .any
    | _ => false

/-- Whether an operator may compare a property of a type with the records of a selection. -/
def allowsSelection (operator : Operator) (type : PropertyType) : Bool :=
  match type with
  | .link => operator = .equal || operator = .isIn
  | .linkList | .linkSet => operator = .containsAll || operator = .containsAny
  | .any => true
  | _ => false

end Operator

/-- The first word that is shorter than the least length of a word. -/
def shortWord? (limits : Limits) (words : List String) : Option String :=
  words.find? fun word => word.length < limits.minWordSize.toNat

/-- Checks the words of a full-text search: there is one, and none is too short. -/
def checkWords (limits : Limits) (text : String) : Result Unit :=
  match Text.words text with
  | [] => reject .noSearchWord
  | words =>
    match shortWord? limits words with
    | some word => reject (.shortWord word limits.minWordSize.toNat)
    | none => .ok ()

/-- Checks the literal operand of a comparison. -/
def checkLiteral (limits : Limits) (property : String) (type : PropertyType) (operator : Operator)
    (value : Value) : Result Unit :=
  if operator.fits type value then
    match operator, value with
    | .containsText, .string text => checkWords limits text
    | _, _ => .ok ()
  else reject (.incompatible operator property type value.kind)

namespace Comparison

/-- An admitted comparison of a property of a class with a literal. -/
def ofLiteral (model : ClassModel) (limits : Limits) (property : String) (operator : Operator)
    (value : Value) (negated : Bool) : Result Comparison := do
  let type ← model.comparedType property
  checkLiteral limits property type operator value
  return ⟨property, operator, .literal value, negated⟩

/-- An admitted comparison of a property of a class with the records of a selection. -/
def ofSelection (model : ClassModel) (property : String) (operator : Operator)
    (selection : Selection) (negated : Bool) : Result Comparison := do
  let type ← model.comparedType property
  if operator.allowsSelection type then
    return ⟨property, operator, .selection selection, negated⟩
  else reject (.noNestedRequest property operator)

end Comparison

namespace ClassModel

/-- Whether a class has a property of a collection type. -/
def hasIterable (model : ClassModel) (property : String) : Bool :=
  (model.property? property).any fun def_ => def_.type.isIterable

/-- The operator of a comparison with a literal that leaves it open. -/
def defaultOperator (model : ClassModel) (property : String) (value : Value) : Operator :=
  match value with
  | .list _ => if model.hasIterable property then .containsAll else .isIn
  | .string _ | .int _ | .float _ | .bool _ =>
    if model.hasIterable property then .contains else .equal
  | .null | .map _ => .equal

/-- The operator of a comparison with a nested request that leaves it open. -/
def defaultSelectionOperator (model : ClassModel) (property : String) : Operator :=
  if model.hasIterable property then .containsAny else .isIn

end ClassModel

end RecordQuery
