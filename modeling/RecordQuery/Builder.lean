import RecordQuery.Query

/-!
# Building requests step by step

A builder starts from a target and takes one option after another. Conditions are given as
predicates: comparisons and groups of predicates. A group must not be empty; the first empty group
is remembered and reported when the request is finished, and from then on no further conditions are
taken.

Conditions of successive calls must all hold.
-/

namespace RecordQuery

/-- A condition as a caller of the builder writes it. -/
inductive Predicate where
  | compare (property : String) (operator : Operator) (value : Value) (negated : Bool)
  /-- The property links to one of the records of a request. -/
  | within (property : String) (request : Request)
  | all (members : List Predicate)
  | any (members : List Predicate)

namespace Predicate

/-- The property equals a value, or is absent for null. -/
def equals (property : String) (value : Value) : Predicate := compare property .equal value false

/-- The property does not equal a value. -/
def differs (property : String) (value : Value) : Predicate := compare property .equal value true

/-- The property is less than a value. -/
def less (property : String) (value : Value) : Predicate := compare property .less value false

/-- The property is at most a value. -/
def atMost (property : String) (value : Value) : Predicate := compare property .atMost value false

/-- The property is greater than a value. -/
def greater (property : String) (value : Value) : Predicate :=
  compare property .greater value false

/-- The property is at least a value. -/
def atLeast (property : String) (value : Value) : Predicate :=
  compare property .atLeast value false

/-- The property is one of the listed values. -/
def isIn (property : String) (values : List Value) : Predicate :=
  compare property .isIn (.list values) false

/-- The collection holds a value. -/
def contains (property : String) (value : Value) : Predicate :=
  compare property .contains value false

/-- The collection holds every listed value. -/
def containsAll (property : String) (values : List Value) : Predicate :=
  compare property .containsAll (.list values) false

/-- The collection holds at least one listed value. -/
def containsAny (property : String) (values : List Value) : Predicate :=
  compare property .containsAny (.list values) false

/-- The property matches the words of a text. -/
def matches_ (property text : String) : Predicate :=
  compare property .containsText (.string text) false

end Predicate

/-- The criterion of a group: of one criterion it is that criterion. -/
def Criterion.group (junction : Criterion.Junction) : List Criterion → Result Criterion
  | [] => reject .emptyGroup
  | [criterion] => .ok criterion
  | criteria => .ok (junction.join criteria)

mutual

/-- The criterion of a predicate. -/
def Predicate.criterion : Predicate → Result Criterion
  | .compare property operator value negated =>
    .ok (.leaf ⟨property, some operator, .literal value, negated⟩)
  | .within property request => .ok (.leaf ⟨property, some .isIn, .request request, false⟩)
  | .all members => (Predicate.criteria members).bind (Criterion.group .all)
  | .any members => (Predicate.criteria members).bind (Criterion.group .any)
  termination_by structural p => p

/-- The criteria of a list of predicates, up to the first empty group. -/
def Predicate.criteria : List Predicate → Result (List Criterion)
  | [] => .ok []
  | predicate :: rest =>
    match Predicate.criterion predicate with
    | .error e => .error e
    | .ok criterion => (Predicate.criteria rest).map (criterion :: ·)
  termination_by structural ps => ps

end

/-- One criterion more. -/
def Criterion.conjoin (existing : Option Criterion) (criterion : Criterion) : Criterion :=
  match existing with
  | none => criterion
  | some (.all children) => .all (children ++ [criterion])
  | some other => .all [other, criterion]

/-- A request in the making, with the error that finishing it will report. -/
structure Builder where
  request : Request
  failure : Option QueryError := none

namespace Builder

/-- Starts from a class. -/
def ofClass (className : String) : Builder := ⟨.ofClass className, none⟩

/-- Starts from record ids. -/
def ofRecords (ids : List String) : Builder := ⟨.ofRecords ids, none⟩

/-- Adds predicates that must all hold. -/
def filter (b : Builder) (predicates : List Predicate) : Builder :=
  match b.failure with
  | some _ => b
  | none =>
    match Predicate.criterion (.all predicates) with
    | .error e => { b with failure := some e }
    | .ok criterion =>
      { b with
        request := { b.request with
          filters := some (Criterion.conjoin b.request.filters criterion) } }

/-- Takes the neighborhood of the selected records. -/
def neighborhood (b : Builder) (edges : List String) (direction : Direction) (depth : UInt32) :
    Builder :=
  { b with
    request := { b.request with
      style := some .neighborhood, edges := some edges, direction := some direction,
      depth := some depth } }

/-- Walks along edges. -/
def walk (b : Builder) (style : TraversalStyle) (edges : List String) : Builder :=
  { b with request := { b.request with style := some style, edges := some edges } }

/-- Walks along outgoing edges. -/
def descendants (b : Builder) (edges : List String) : Builder := b.walk .descendants edges

/-- Walks along incoming edges. -/
def ancestors (b : Builder) (edges : List String) : Builder := b.walk .ancestors edges

/-- Expands linked records to a depth. -/
def neighbors (b : Builder) (depth : UInt32) : Builder :=
  { b with request := { b.request with neighbors := some depth } }

/-- Returns the given properties. -/
def select (b : Builder) (properties : List String) : Builder :=
  { b with request := { b.request with returnProperties := some properties } }

/-- Orders the rows. -/
def orderBy (b : Builder) (properties : List String) (direction : SortDirection) : Builder :=
  { b with
    request := { b.request with
      orderBy := some properties, orderByDirection := some direction } }

/-- Passes over rows. -/
def skip (b : Builder) (rows : UInt64) : Builder :=
  { b with request := { b.request with skip := rows } }

/-- Returns no more than a number of rows. -/
def limit (b : Builder) (rows : UInt64) : Builder :=
  { b with request := { b.request with limit := some rows } }

/-- Keeps deleted records. -/
def history (b : Builder) : Builder := { b with request := { b.request with history := true } }

/-- Returns the number of rows. -/
def count (b : Builder) : Builder := { b with request := { b.request with count := true } }

/-- Finishes the request. -/
def build (b : Builder) : Result Request :=
  match b.failure with
  | some e => .error e
  | none => .ok b.request

/-- Finishes and checks the request. -/
def query (b : Builder) (schema : Schema) (limits : Limits) : Result Query := do
  Query.ofRequest schema limits (← b.build)

/-- Finishes, checks and renders the request. -/
def statement (b : Builder) (schema : Schema) (limits : Limits) : Result Statement :=
  (b.query schema limits).map Query.toStatement

end Builder

end RecordQuery
