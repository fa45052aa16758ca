import RecordQuery.Selection.Basic

/-!
# Requests

A request is what a caller asks for, before anything is checked. It names a class or record ids,
may carry criteria and a traversal, and has outer options that say which part of the result comes
back and in which form. Criteria are a tree of wanted comparisons; a comparison may leave its
operator open, and its operand is a literal or again a request.
-/

namespace RecordQuery

/-- What a request starts from, as written. -/
inductive WantedTarget where
  | named (className : String)
  | records (ids : List String)
  deriving DecidableEq, Repr, Inhabited

/-- The style of a traversal. -/
inductive TraversalStyle where
  | neighborhood
  /-- A walk along outgoing edges. -/
  | descendants
  /-- A walk along incoming edges. -/
  | ancestors
  deriving DecidableEq, Repr, Inhabited

namespace TraversalStyle

/-- The name of a style. -/
def name : TraversalStyle → String
  | .neighborhood => "neighborhood"
  | .descendants => "descendants"
  | .ancestors => "ancestors"

/-- The names with their meaning. -/
def names : List (String × TraversalStyle) :=
  [("neighborhood", .neighborhood), ("descendants", .descendants), ("ancestors", .ancestors)]

end TraversalStyle

/-- The direction of an order. -/
inductive SortDirection where
  | ascending
  | descending
  deriving DecidableEq, Repr, Inhabited

namespace SortDirection

/-- The keyword of a direction. -/
def keyword : SortDirection → String
  | .ascending => "ASC"
  | .descending => "DESC"

/-- The names with their meaning. -/
def names : List (String × SortDirection) :=
  [("ASC", .ascending), ("asc", .ascending), ("DESC", .descending), ("desc", .descending)]

end SortDirection

mutual

/-- A wanted condition. -/
inductive Criterion where
  | leaf (comparison : WantedComparison)
  /-- Every condition holds. -/
  | all (children : List Criterion)
  /-- At least one condition holds. -/
  | any (children : List Criterion)

/-- The right hand side of a wanted comparison. -/
inductive WantedOperand where
  | literal (value : Value)
  | request (request : Request)

/-- A wanted comparison; without an operator one is chosen by property and operand. -/
structure WantedComparison where
  property : String
  operator : Option Operator
  operand : WantedOperand
  negated : Bool

/-- What a caller asks for. -/
structure Request where
  target : WantedTarget
  filters : Option Criterion
  /-- How deep linked records are expanded. -/
  neighbors : Option UInt32
  style : Option TraversalStyle
  edges : Option (List String)
  direction : Option Direction
  depth : Option UInt32
  returnProperties : Option (List String)
  orderBy : Option (List String)
  orderByDirection : Option SortDirection
  /-- How many rows are passed over. -/
  skip : UInt64
  limit : Option UInt64
  /-- Whether deleted records count too. -/
  history : Bool
  /-- Whether only the number of rows is wanted. -/
  count : Bool

end

/-- The two ways in which criteria are joined. -/
inductive Criterion.Junction where
  | all
  | any
  deriving DecidableEq, Repr

/-- The criterion of a junction. -/
def Criterion.Junction.join : Criterion.Junction → List Criterion → Criterion
  | .all, children => .all children
  | .any, children => .any children

namespace Request

/-- Everything that a target names, without options. -/
def ofTarget (target : WantedTarget) : Request :=
  { target, filters := none, neighbors := none, style := none, edges := none, direction := none,
    depth := none, returnProperties := none, orderBy := none, orderByDirection := none, skip := 0,
    limit := none, history := false, count := false }

/-- The active records of a class. -/
def ofClass (className : String) : Request := ofTarget (.named className)

/-- The records of the given ids. -/
def ofRecords (ids : List String) : Request := ofTarget (.records ids)

instance : Inhabited Request := ⟨ofClass ""⟩

/-- Whether an option is set that only the outermost request may carry. -/
def hasOuterOptions (r : Request) : Bool :=
  r.neighbors.isSome || r.returnProperties.isSome || r.orderBy.isSome ||
    r.orderByDirection.isSome || r.skip != 0 || r.limit.isSome || r.count

/-- The request without its outer options. -/
def inner (r : Request) : Request :=
  { r with
    neighbors := none, returnProperties := none, orderBy := none, orderByDirection := none,
    skip := 0, limit := none, count := false }

theorem hasOuterOptions_inner (r : Request) : r.inner.hasOuterOptions = false := by
  simp [inner, hasOuterOptions]

end Request

end RecordQuery
