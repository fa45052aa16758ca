import RecordQuery.Projection
import RecordQuery.Selection.OfRequest
import RecordQuery.Selection.Render

/-!
# Queries

A query is a checked request: a selection and the outer options around it.

* `OuterOptions.wrap` puts the options around the statement of a selection. A count replaces the
  rows, and with them the order and the paging; else the projection, the order, the rows passed over
  and the limit follow in this place. Without options the statement stays as it is.
* `Query.ofRequest` checks a request against a schema and limits.
* `Query.toStatement` is the statement that is sent.
-/

namespace RecordQuery

/-- What is done with the rows of a selection. -/
structure OuterOptions where
  /-- The properties that come back; nothing and a star mean all of them. -/
  projection : Option String := none
  orderBy : List String := []
  orderByDirection : Option SortDirection := none
  skip : UInt64 := 0
  limit : Option UInt64 := none
  count : Bool := false
  deriving DecidableEq, Repr, Inhabited

namespace OuterOptions

/-- The projection if it leaves something out. -/
def narrowing? (options : OuterOptions) : Option String :=
  options.projection.filter (· ≠ Projection.everything)

/-- Whether the rows come back as they are. -/
def isPassthrough (options : OuterOptions) : Bool :=
  options.narrowing?.isNone && !options.count && options.orderBy.isEmpty && options.skip == 0 &&
    options.limit.isNone

/-- The clause of the order. -/
def orderText (options : OuterOptions) : String :=
  if options.orderBy.isEmpty then ""
  else
    let direction := (options.orderByDirection.getD .ascending).keyword
    " ORDER BY " ++ ", ".intercalate (options.orderBy.map fun name => name ++ " " ++ direction)

/-- The clause of the rows passed over. -/
def skipText (options : OuterOptions) : String :=
  if options.skip = 0 then "" else " SKIP " ++ toString options.skip

/-- The clause of the limit. -/
def limitText (options : OuterOptions) : String :=
  match options.limit with
  | none => ""
  | some limit => " LIMIT " ++ toString limit

/-- The text with the projection in front of it. -/
def projectText (options : OuterOptions) (text : String) : String :=
  match options.narrowing? with
  | none => text
  | some projection => "SELECT " ++ projection ++ " FROM (" ++ text ++ ")"

/-- The text with the options around it. -/
def wrapText (options : OuterOptions) (text : String) : String :=
  if options.isPassthrough then text
  else if options.count then "SELECT count(*) AS count FROM (" ++ text ++ ")"
  else options.projectText text ++ options.orderText ++ options.skipText ++ options.limitText

/-- The statement with the options around it. -/
def wrap (options : OuterOptions) (inner : Statement) : Statement :=
  { inner with text := options.wrapText inner.text }

end OuterOptions

/-- A checked request. -/
structure Query where
  /-- What the query reads from, for messages. -/
  target : String
  selection : Selection
  options : OuterOptions
  history : Bool

namespace Query

/-- Checks the outer options that have limits. -/
def checkLimits (limits : Limits) (r : Request) : Result Unit :=
  if r.neighbors.isSome && r.returnProperties.isSome then reject .neighborsAndProperties
  else
    match r.neighbors.filter (limits.maxNeighbors < ·), r.limit.filter (limits.maxLimit < ·) with
    | some neighbors, _ => reject (.neighborsBeyondLimit neighbors limits.maxNeighbors)
    | none, some limit => reject (.rowsBeyondLimit limit limits.maxLimit)
    | none, none => .ok ()

/-- The projection of names, by the class of the target if it is one. -/
def project (schema : Schema) (model : Option ClassModel) (names : List String) : Result String :=
  match model with
  | some model => Projection.ofPaths schema model names
  | none => Projection.ofNames names

/-- Checks the names that rows are ordered by. -/
def checkOrder (schema : Schema) (model : Option ClassModel) (names : List String) : Result Unit :=
  if names.isEmpty then .ok () else (project schema model names).map fun _ => ()

/-- The projection that a request asks for. -/
def projection? (schema : Schema) (model : Option ClassModel) (r : Request) :
    Result (Option String) :=
  match r.returnProperties, r.neighbors with
  | some names, _ => (project schema model names).map some
  | none, some depth =>
    .ok (if depth = 0 then none else some (Projection.nested (!r.history) depth.toNat))
  | none, none => .ok none

/-- The target of a request in messages, and its class if it is one. -/
def readTarget (schema : Schema) : WantedTarget → Result (String × Option ClassModel)
  | .named className => (schema.require className).map fun model => (model.name, some model)
  | .records ids => .ok ("[" ++ ", ".intercalate ids ++ "]", none)

/-- Checks a request. -/
def ofRequest (schema : Schema) (limits : Limits) (r : Request) : Result Query := do
  checkLimits limits r
  let selection ← Selection.ofRequest schema limits r.inner
  let (target, model) ← readTarget schema r.target
  let orderBy := r.orderBy.getD []
  checkOrder schema model orderBy
  let projection ← projection? schema model r
  return {
    target
    selection
    options := {
      projection, orderBy, orderByDirection := r.orderByDirection, skip := r.skip,
      limit := r.limit, count := r.count }
    history := r.history }

/-- The statement of a query, with placeholders from number zero. -/
def toStatement (q : Query) : Statement := q.options.wrap q.selection.toStatement

/-- The statement with values in the place of placeholders. -/
def display (q : Query) : String := q.toStatement.display

end Query

end RecordQuery
