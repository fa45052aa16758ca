import RecordQuery.Json.Shape
import RecordQuery.Operator
import RecordQuery.Schema.PropertyType

/-!
# Failures

Why a query fails. A request that is malformed or does not fit the schema or the limits has a
`Rejection`; an answer of the store with too few or too many records has a `Mismatch`; any other
failure of the store carries its own words. `QueryError` puts the three together, with the
statement that was sent where there was one.

`QueryError.ofStore` is how a failure of the store is reported: one that already is a query error is
passed on, any other becomes a database error with the statement.
-/

namespace RecordQuery

/-- Why a request is turned down. -/
inductive Rejection where
  -- documents
  | malformedRequest
  | requestShape (cause : ShapeError)
  | filterShape (cause : ShapeError)
  | malformedSchema
  -- names
  | invalidRecordId (text : String)
  | unsupportedOperator (text : String)
  | unknownClass (name : String)
  | unknownEdge (name : String)
  | unknownProperty (property className : String)
  | invalidPropertyName (name : String)
  -- schemas
  | unknownParent (className parent : String)
  | unresolvedParents (classNames : List String)
  -- comparisons
  | incompatible (operator : Operator) (property : String) (type : PropertyType)
      (found : Value.Kind)
  | noSearchWord
  | shortWord (word : String) (minimum : Nat)
  | noNestedRequest (property : String) (operator : Operator)
  | emptyGroup
  -- selections
  | outerOptionsInside
  | conditionsOnRecords
  | noRecords
  | depthBeyondLimit (depth limit : UInt32)
  | noDepth
  | directionOfWalk
  | noEdges
  -- results
  | neighborsAndProperties
  | neighborsBeyondLimit (neighbors limit : UInt32)
  | rowsBeyondLimit (rows limit : UInt64)
  | noProperties
  | notALink (segment className path : String)
  -- searches, matches and names
  | noKeyword
  | noActiveIndex (className : String)
  | noLink (className property : String)
  /-- A rejection in the words of the store. -/
  | reported (message : String)

/-- The text of a rejection. -/
def Rejection.message : Rejection → String
  | .malformedRequest => "invalid query: not a JSON request"
  | .requestShape cause => "invalid query: " ++ cause.message
  | .filterShape cause => cause.message
  | .malformedSchema => "invalid schema document: not a list of classes"
  | .invalidRecordId text => "invalid record id (" ++ text ++ ")"
  | .unsupportedOperator text => "unsupported operator (" ++ text ++ ")"
  | .unknownClass name => "Invalid target class (" ++ name ++ ")"
  | .unknownEdge name => "Invalid edge class (" ++ name ++ ")"
  | .unknownProperty property className =>
    "property (" ++ property ++ ") is not defined on the class (" ++ className ++ ")"
  | .invalidPropertyName name => "invalid property name (" ++ name ++ ")"
  | .unknownParent className parent =>
    "class (" ++ className ++ ") inherits from unknown class (" ++ parent ++ ")"
  | .unresolvedParents classNames =>
    "unresolved or cyclic supertypes for classes (" ++ ", ".intercalate classNames ++ ")"
  | .incompatible operator property type found =>
    "operator (" ++ operator.symbol ++ ") is not compatible with the property (" ++ property ++
      ") of type (" ++ type.label ++ ") and value of type (" ++ found.name ++ ")"
  | .noSearchWord => "full-text search term must contain at least one word"
  | .shortWord word minimum =>
    "Word \"" ++ word ++ "\" is too short to query with ~ operator. Must be at least " ++
      toString minimum ++ " letters after splitting on whitespace characters"
  | .noNestedRequest property operator =>
    "subquery values are not supported for the property (" ++ property ++ ") with operator (" ++
      operator.symbol ++ ")"
  | .emptyGroup => "predicate group must contain at least one comparison"
  | .outerOptionsInside => "subqueries accept only target, filters, traversal and history options"
  | .conditionsOnRecords => "a record id target cannot be combined with filters or traversal"
  | .noRecords => "record id target must not be empty"
  | .depthBeyondLimit depth limit =>
    s!"depth ({depth}) exceeds the maximum traversal depth ({limit})"
  | .noDepth => "neighborhood depth must be at least 1"
  | .directionOfWalk => "direction cannot be combined with a descendants or ancestors query"
  | .noEdges => "descendants and ancestors queries require at least one edge class"
  | .neighborsAndProperties => "neighbors and returnProperties cannot be combined"
  | .neighborsBeyondLimit neighbors limit =>
    s!"neighbors ({neighbors}) exceeds the maximum ({limit})"
  | .rowsBeyondLimit rows limit => s!"limit ({rows}) exceeds the maximum ({limit})"
  | .noProperties => "returnProperties must not be empty"
  | .notALink segment className path =>
    "property (" ++ segment ++ ") of class (" ++ className ++
      ") is not a link and cannot be expanded in (" ++ path ++ ")"
  | .noKeyword => "keyword query parameter is required"
  | .noActiveIndex className =>
    "class (" ++ className ++ ") has no active unique index to match on"
  | .noLink className property =>
    className ++ " requires a " ++ property ++ " link to compute its display name"
  | .reported message => message

/-- How an answer of the store differs from what was asked for. -/
inductive Mismatch where
  | tooFew (expected found : Nat)
  | unexpected (expected found : Nat)
  | noUser (name : String)
  | ambiguousUser (name : String) (count : Nat)
  /-- A linked record is missing from the answer. -/
  | linkNotFound (id : RecordId)
  /-- A mismatch in the words of the store. -/
  | reported (message : String)

/-- The text of a mismatch. -/
def Mismatch.message : Mismatch → String
  | .tooFew expected found => s!"query expected {expected} records but only found {found}"
  | .unexpected expected found =>
    s!"query returned unexpected number of results. Found {found} results but expected " ++
      s!"{expected} results"
  | .noUser name => "no user found for the username '" ++ name ++ "'"
  | .ambiguousUser name count =>
    "username (" ++ name ++ s!") is not unique and returned multiple ({count}) records"
  | .linkNotFound id => "linked record (" ++ id.text ++ ") was not found"
  | .reported message => message

/-- Why a query fails. -/
inductive QueryError where
  | attribute (cause : Rejection)
  /-- Fewer records than required, with the statement that was sent. -/
  | noRecordFound (cause : Mismatch) (statement : Option String)
  /-- More records than required, with the statement that was sent. -/
  | multipleRecordsFound (cause : Mismatch) (statement : Option String)
  /-- The store failed on a statement. -/
  | database (statement failure : String)

namespace QueryError

/-- The name of the kind of error. -/
def code : QueryError → String
  | .attribute _ => "AttributeError"
  | .noRecordFound .. => "NoRecordFoundError"
  | .multipleRecordsFound .. => "MultipleRecordsFoundError"
  | .database .. => "DatabaseError"

/-- The text of an error. -/
def message : QueryError → String
  | .attribute cause => cause.message
  | .noRecordFound cause _ => cause.message
  | .multipleRecordsFound cause _ => cause.message
  | .database statement failure =>
    "error executing statement (" ++ statement ++ "): " ++ failure

/-- The text with the name of the kind in front. -/
def messageWithCode (e : QueryError) : String := "[" ++ e.code ++ "] " ++ e.message

/-- The statement that an error is about. -/
def statement? : QueryError → Option String
  | .attribute _ => none
  | .noRecordFound _ statement => statement
  | .multipleRecordsFound _ statement => statement
  | .database statement _ => some statement

end QueryError

/-- A failure of the store. -/
inductive StoreFailure where
  /-- One that already is a query error. -/
  | raised (error : QueryError)
  /-- One in the words of the store. -/
  | broken (message : String)

/-- The error that reports a failure of the store on a statement. -/
def QueryError.ofStore (failure : StoreFailure) (statement : String) : QueryError :=
  match failure with
  | .raised error => error
  | .broken message => .database statement message

/-- A result or the reason why there is none. -/
abbrev Result (α : Type) := Except QueryError α

/-- Turns a request down. -/
def reject {α : Type} (cause : Rejection) : Result α := .error (.attribute cause)

/-- The value of an option, or a rejection. -/
def orReject {α : Type} (cause : Rejection) : Option α → Result α
  | some a => .ok a
  | none => reject cause

theorem map_eq_ok {ε α β : Type} {f : α → β} {x : Except ε α} {b : β} :
    x.map f = .ok b ↔ ∃ a, x = .ok a ∧ f a = b := by
  cases x <;> simp [Except.map]

theorem bind_eq_ok {ε α β : Type} {x : Except ε α} {f : α → Except ε β} {b : β} :
    x >>= f = .ok b ↔ ∃ a, x = .ok a ∧ f a = .ok b := by
  cases x <;> simp [bind, Except.bind]

theorem orReject_eq_ok {α : Type} {cause : Rejection} {o : Option α} {a : α} :
    orReject cause o = .ok a ↔ o = some a := by
  cases o <;> simp [orReject, reject]

end RecordQuery
