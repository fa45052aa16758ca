import RecordQuery.Binder
import RecordQuery.Operator
import RecordQuery.Selection.Traversal

/-!
# Selections

A selection names records by their ids, or takes the records of a class that meet a filter, with a
traversal around them if one is given. A filter is a tree of comparisons, and the operand of a
comparison is a literal or again a selection, so the two are defined together.

Records that carry a deletion time are not *active*. A selection keeps to active records unless it
asks for the history; `Selection.effectiveFilter` is the filter with that condition.

A junction without any comparison below it says nothing and leaves no trace in the text. Three
functions tell beforehand what the text will look like: `isEmpty` (there is none), `leafCount`, and
`rendersGrouped` (it is one group in parentheses).
-/

namespace RecordQuery

/-- The records that a selection starts from. -/
inductive Target where
  | named (className : String)
  | records (ids : List RecordId)
  deriving DecidableEq, Repr, Inhabited

mutual

/-- A condition on records. -/
inductive Filter where
  | leaf (comparison : Comparison)
  /-- Every condition holds. -/
  | all (children : List Filter)
  /-- At least one condition holds. -/
  | any (children : List Filter)

/-- The right hand side of a comparison. -/
inductive Operand where
  | literal (value : Value)
  | selection (selection : Selection)

/-- A comparison of a property with an operand. -/
structure Comparison where
  property : String
  operator : Operator
  operand : Operand
  negated : Bool

/-- A choice of records. -/
structure Selection where
  target : Target
  filter : Option Filter
  /-- Whether deleted records count too. -/
  history : Bool
  traversal : Option Traversal

end

namespace Comparison

/-- The property equals a value. -/
def equals (property : String) (value : Value) : Comparison :=
  ⟨property, .equal, .literal value, false⟩

/-- The property is absent. -/
def isNull (property : String) : Comparison := equals property .null

end Comparison

/-- The property with the deletion time of a record. -/
def deletionTime : String := "deletedAt"

namespace Filter

/-- The record is not deleted. -/
def active : Filter := .leaf (Comparison.isNull deletionTime)

/-- Both conditions; a conjunction takes one more. -/
def andAlso : Filter → Filter → Filter
  | .all children, other => .all (children ++ [other])
  | filter, other => .all [filter, other]

mutual

/-- Whether there is no comparison. -/
def isEmpty : Filter → Bool
  | .leaf _ => false
  | .all children => areEmpty children
  | .any children => areEmpty children
  termination_by structural f => f

/-- Whether there is no comparison in any of the filters. -/
def areEmpty : List Filter → Bool
  | [] => true
  | child :: rest => isEmpty child && areEmpty rest
  termination_by structural fs => fs

end

mutual

/-- The number of comparisons, not counting those inside nested selections. -/
def leafCount : Filter → Nat
  | .leaf _ => 1
  | .all children => leafCounts children
  | .any children => leafCounts children
  termination_by structural f => f

/-- The number of comparisons in all of the filters. -/
def leafCounts : List Filter → Nat
  | [] => 0
  | child :: rest => leafCount child + leafCounts rest
  termination_by structural fs => fs

end

mutual

/-- Whether the text is one group in parentheses. -/
def rendersGrouped : Filter → Bool
  | .leaf _ => false
  | .all children => junctionGrouped children
  | .any children => junctionGrouped children
  termination_by structural f => f

/-- Whether the text of a junction is one group in parentheses: two of its members have a text, or
the only one that has is a group itself. -/
def junctionGrouped : List Filter → Bool
  | [] => false
  | child :: rest =>
    if isEmpty child then junctionGrouped rest
    else if areEmpty rest then rendersGrouped child
    else true
  termination_by structural fs => fs

end

theorem areEmpty_eq_all (children : List Filter) : areEmpty children = children.all isEmpty := by
  induction children with
  | nil => rfl
  | cons child rest ih => simp [areEmpty, ih]

end Filter

namespace Selection

/-- The records of the given ids. -/
def ofRecords (ids : List RecordId) (history : Bool) : Selection :=
  ⟨.records ids, none, history, none⟩

/-- The records of a class that meet a filter. -/
def ofClass (className : String) (filter : Option Filter) (history : Bool) : Selection :=
  ⟨.named className, filter, history, none⟩

/-- The selection with a traversal around it. -/
def withTraversal (s : Selection) (traversal : Traversal) : Selection :=
  { s with traversal := some traversal }

/-- The filter, and the condition that records are active unless the history is asked for. -/
def effectiveFilter (s : Selection) : Option Filter :=
  match s.filter, s.history with
  | filter, true => filter
  | some filter, false => some (filter.andAlso Filter.active)
  | none, false => some Filter.active

end Selection

end RecordQuery
