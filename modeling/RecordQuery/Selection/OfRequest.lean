import RecordQuery.Request.Basic
import RecordQuery.Selection.Check

/-!
# From requests to selections

`Selection.ofRequest` checks the part of a request that says which records are meant. Outer options
belong to the outermost request only, so a request that carries any is turned down here; the
outermost one is looked at without them.

The class comes first, then the criteria, whose nested requests are checked by the same rules, and
then the traversal. A request for explicit records carries neither criteria nor a traversal.
-/

namespace RecordQuery

namespace Request

/-- The style of the traversal that a request asks for: the one it names; else a neighborhood if it
gives a direction or a depth; else descendants if it gives edges. -/
def traversalStyle? (r : Request) : Option TraversalStyle :=
  match r.style with
  | some style => some style
  | none =>
    if r.direction.isSome || r.depth.isSome then some .neighborhood
    else if r.edges.isSome then some .descendants
    else none

/-- Checks that every edge is a class of the schema. -/
def checkEdges (schema : Schema) : List String → Result Unit
  | [] => .ok ()
  | edge :: rest =>
    match schema.model? edge with
    | none => reject (.unknownEdge edge)
    | some _ => checkEdges schema rest

/-- Checks that a depth, if one is given, keeps to the limit. -/
def checkDepth (limits : Limits) : Option UInt32 → Result Unit
  | none => .ok ()
  | some depth =>
    if limits.maxDepth < depth then reject (.depthBeyondLimit depth limits.maxDepth) else .ok ()

/-- The neighborhood that a request asks for. -/
def neighborhood (limits : Limits) (edges : List String) (r : Request) : Result Traversal :=
  let depth := r.depth.getD limits.relatedNodeDepth
  if depth = 0 then reject .noDepth
  else .ok (.neighborhood edges (r.direction.getD .both) depth)

/-- The walk that a request asks for. -/
def walk (limits : Limits) (edges : List String) (direction : Direction) (r : Request) :
    Result Traversal :=
  if r.direction.isSome then reject .directionOfWalk
  else if edges.isEmpty then reject .noEdges
  else .ok (.walk edges direction (r.depth.getD limits.maxDepth))

/-- The traversal that a request asks for. -/
def traversal (schema : Schema) (limits : Limits) (r : Request) : Result (Option Traversal) :=
  match r.traversalStyle? with
  | none => .ok none
  | some style => do
    let edges := r.edges.getD []
    checkEdges schema edges
    checkDepth limits r.depth
    match style with
    | .neighborhood => return some (← neighborhood limits edges r)
    | .descendants => return some (← walk limits edges .outgoing r)
    | .ancestors => return some (← walk limits edges .incoming r)

/-- Reads the ids of a request for explicit records. -/
def readIds : List String → Result (List RecordId)
  | [] => .ok []
  | text :: rest =>
    match RecordId.parse? .persistent text with
    | none => reject (.invalidRecordId text)
    | some id => (readIds rest).map (id :: ·)

/-- Whether a request carries criteria or a traversal. -/
def hasConditions (r : Request) : Bool :=
  r.filters.isSome || r.edges.isSome || r.direction.isSome || r.depth.isSome || r.style.isSome

/-- The selection of explicit records. -/
def recordSelection (r : Request) (ids : List String) : Result Selection :=
  if r.hasConditions then reject .conditionsOnRecords
  else if ids.isEmpty then reject .noRecords
  else (readIds ids).map fun ids => Selection.ofRecords ids r.history

/-- The filter unless it holds no comparison. -/
def keepFilter (filter : Option Filter) : Option Filter :=
  filter.filter fun f => !f.isEmpty

end Request

mutual

/-- The checked filter of criteria on the records of a class. -/
def Criterion.lower (schema : Schema) (limits : Limits) (model : ClassModel) :
    Criterion → Result Filter
  | .leaf comparison => (WantedComparison.lower schema limits model comparison).map .leaf
  | .all children => (Criterion.lowerEach schema limits model children).map .all
  | .any children => (Criterion.lowerEach schema limits model children).map .any
  termination_by structural c => c

/-- The checked filters of a list of criteria. -/
def Criterion.lowerEach (schema : Schema) (limits : Limits) (model : ClassModel) :
    List Criterion → Result (List Filter)
  | [] => .ok []
  | child :: rest =>
    match Criterion.lower schema limits model child with
    | .error e => .error e
    | .ok filter => (Criterion.lowerEach schema limits model rest).map (filter :: ·)
  termination_by structural cs => cs

/-- The checked form of a wanted comparison. -/
def WantedComparison.lower (schema : Schema) (limits : Limits) (model : ClassModel) :
    WantedComparison → Result Comparison
  | ⟨property, operator, operand, negated⟩ =>
    WantedOperand.lower schema limits model operand property operator negated
  termination_by structural c => c

/-- The checked comparison of a property with a wanted operand. A nested request is checked before
the comparison it stands in. -/
def WantedOperand.lower (schema : Schema) (limits : Limits) (model : ClassModel) :
    WantedOperand → String → Option Operator → Bool → Result Comparison
  | .literal value, property, operator, negated =>
    Comparison.ofLiteral model limits property
      (operator.getD (model.defaultOperator property value)) value negated
  | .request request, property, operator, negated =>
    match Selection.ofRequest schema limits request with
    | .error e => .error e
    | .ok selection =>
      Comparison.ofSelection model property
        (operator.getD (model.defaultSelectionOperator property)) selection negated
  termination_by structural o => o

/-- The checked filter of the criteria of a request, on the records of a class given by name. -/
def Criterion.lowerOption (schema : Schema) (limits : Limits) (className : String) :
    Option Criterion → Result (Option Filter)
  | none => .ok none
  | some criterion =>
    match schema.require className with
    | .error e => .error e
    | .ok model => (Criterion.lower schema limits model criterion).map some
  termination_by structural c => c

/-- The selection that a request without outer options asks for. -/
def Selection.ofRequest (schema : Schema) (limits : Limits) : Request → Result Selection
  | ⟨target, filters, neighbors, style, edges, direction, depth, returnProperties, orderBy,
      orderByDirection, skip, limit, history, count⟩ =>
    let r : Request := ⟨target, filters, neighbors, style, edges, direction, depth,
      returnProperties, orderBy, orderByDirection, skip, limit, history, count⟩
    if r.hasOuterOptions then reject .outerOptionsInside
    else
      match target with
      | .records ids => r.recordSelection ids
      | .named className =>
        match schema.require className with
        | .error e => .error e
        | .ok model =>
          match Criterion.lowerOption schema limits model.name filters with
          | .error e => .error e
          | .ok filter =>
            (r.traversal schema limits).map fun traversal =>
              ⟨.named model.name, Request.keepFilter filter, history, traversal⟩
  termination_by structural r => r

end

/-- The checked filter of criteria on the records of a class given by name. -/
def Criterion.build (schema : Schema) (limits : Limits) (className : String) (c : Criterion) :
    Result Filter := do
  c.lower schema limits (← schema.require className)

end RecordQuery
