import RecordQuery.Proofs.Wrapping

/-!
# Placeholders and the literals of a request

The literals of a request are counted through all of its levels, from left to right, each before
those behind it. This module shows that the statement of an accepted request names one placeholder
for each, in that order, and binds it to that literal.

* `Selection.literals_of_ofRequest` — checking a request keeps its literals and their order.
* `Draft.placeholders_segments` — the placeholders of a draft are numbered in order.
* `Query.placeholders_of_ofRequest` — the placeholders in the text, the names that are bound, and
  the values that they are bound to.
-/

namespace RecordQuery

-- ---------------------------------------------------------------------------
-- The literals of a request
-- ---------------------------------------------------------------------------

mutual

/-- The literals of a criterion. Equality with null asks for absence and has no literal. -/
def Criterion.literals : Criterion → List Value
  | .leaf comparison => WantedComparison.literals comparison
  | .all children => Criterion.literalsEach children
  | .any children => Criterion.literalsEach children
  termination_by structural c => c

/-- The literals of a list of criteria. -/
def Criterion.literalsEach : List Criterion → List Value
  | [] => []
  | child :: rest => Criterion.literals child ++ Criterion.literalsEach rest
  termination_by structural cs => cs

/-- The literals of a wanted comparison. -/
def WantedComparison.literals : WantedComparison → List Value
  | ⟨_, operator, operand, _⟩ => WantedOperand.literals operand operator
  termination_by structural c => c

/-- The literals of a wanted operand. -/
def WantedOperand.literals : WantedOperand → Option Operator → List Value
  | .literal value, operator =>
    if value.isNull && operator.getD .equal = .equal then [] else [value]
  | .request request, _ => Request.literals request
  termination_by structural o => o

/-- The literals of a request, those of nested requests included. -/
def Request.literals : Request → List Value
  | ⟨_, none, _, _, _, _, _, _, _, _, _, _, _, _⟩ => []
  | ⟨_, some criterion, _, _, _, _, _, _, _, _, _, _, _, _⟩ => Criterion.literals criterion
  termination_by structural r => r

end

namespace Criterion

/-- The literals of several criteria are those of one after the other. -/
theorem literalsEach_eq_flatMap (cs : List Criterion) : literalsEach cs = cs.flatMap literals := by
  induction cs with
  | nil => rfl
  | cons c rest ih => rw [literalsEach, ih, List.flatMap_cons]

theorem literals_all (children : List Criterion) :
    (Criterion.all children).literals = children.flatMap literals := by
  rw [literals, literalsEach_eq_flatMap]

theorem literals_any (children : List Criterion) :
    (Criterion.any children).literals = children.flatMap literals := by
  rw [literals, literalsEach_eq_flatMap]

/-- A literal is bound unless it is null and compared by equality. -/
theorem literals_literal (property : String) (operator : Option Operator) (value : Value)
    (negated : Bool) :
    (Criterion.leaf ⟨property, operator, .literal value, negated⟩).literals =
      if value.isNull && operator.getD .equal = .equal then [] else [value] := by
  rw [literals, WantedComparison.literals, WantedOperand.literals]

/-- A comparison with a nested request has the literals of that request. -/
theorem literals_request (property : String) (operator : Option Operator) (r : Request)
    (negated : Bool) :
    (Criterion.leaf ⟨property, operator, .request r, negated⟩).literals = r.literals := by
  rw [literals, WantedComparison.literals, WantedOperand.literals]

end Criterion

namespace Request

/-- The literals of a request are those of its criteria. -/
theorem literals_eq (r : Request) : r.literals = r.filters.elim [] Criterion.literals := by
  obtain ⟨target, filters, neighbors, style, edges, direction, depth, returnProperties, orderBy,
    orderByDirection, skip, limit, history, count⟩ := r
  cases filters <;> rw [literals] <;> rfl

theorem literals_inner (r : Request) : r.inner.literals = r.literals := by
  rw [literals_eq, literals_eq]
  rfl

end Request

-- ---------------------------------------------------------------------------
-- Checking keeps the literals
-- ---------------------------------------------------------------------------

namespace Filter

/-- A checked comparison binds its literal under the same exception as the criterion it came
from. -/
theorem literals_literal (property : String) (operator : Operator) (value : Value)
    (negated : Bool) :
    (Filter.leaf ⟨property, operator, .literal value, negated⟩).literals =
      if value.isNull && operator = .equal then [] else [value] := by
  rw [literals, draft, Comparison.draft, Operand.draft, Option.elim_some, Draft.literals_negation]
  split <;> simp [Draft.literals]

/-- A checked comparison with a selection binds what the selection binds. -/
theorem literals_selection (property : String) (operator : Operator) (s : Selection)
    (negated : Bool) :
    (Filter.leaf ⟨property, operator, .selection s, negated⟩).literals = s.literals := by
  rw [literals, draft, Comparison.draft, Operand.draft, Option.elim_some, Draft.literals_negation]
  simp [Draft.literals, Draft.literals_append, Selection.literals]

theorem literals_active : active.literals = [] := literals_literal ..

theorem literals_andAlso (f g : Filter) : (f.andAlso g).literals = f.literals ++ g.literals := by
  cases f <;> simp [andAlso, literals_all]

end Filter

namespace Selection

/-- A selection of records writes its ids and binds nothing. -/
theorem literals_records (ids : List RecordId) (history : Bool) :
    (ofRecords ids history).literals = [] := by
  rw [literals, ofRecords, draft]
  rfl

/-- That records are active is asked without a literal. -/
theorem literals_eq_of_named (className : String) (filter : Option Filter) (history : Bool)
    (traversal : Option Traversal) :
    Selection.literals ⟨.named className, filter, history, traversal⟩ =
      filter.elim [] Filter.literals := by
  rw [literals_named]
  cases filter <;> cases history <;>
    simp [effectiveFilter, Filter.literals_andAlso, Filter.literals_active]

variable {schema : Schema} {limits : Limits}

/-- The selection of an accepted request has the literals of the request, in their order. Null is no
literal on either side, as absence is asked for without a placeholder. -/
theorem literals_of_ofRequest {r : Request} {s : Selection}
    (h : ofRequest schema limits r = .ok s) : s.literals = r.literals := by
  have heach : ∀ {cs : List Criterion} {fs : List Filter},
      List.Forall₂ (fun c f => f.literals = c.literals) cs fs →
      fs.flatMap Filter.literals = cs.flatMap Criterion.literals := by
    intro cs fs hchildren
    induction hchildren with
    | nil => rfl
    | cons hfirst _ ih => rw [List.flatMap_cons, List.flatMap_cons, hfirst, ih]
  refine (ofRequest_induction (P := fun _ c f => f.literals = c.literals)
    (Q := fun r s => s.literals = r.literals) ?_ ?_ ?_ ?_ ?_ ?_).2 r s h
  · intro model property operator value negated type _ _
    rw [Filter.literals_literal, Criterion.literals_literal]
    cases operator with
    | some operator => rfl
    | none =>
      -- a comparison with null that leaves the operator open is one of equality
      cases value <;> rfl
  · intro model property operator request s negated type ih _ _
    rw [Filter.literals_selection, Criterion.literals_request, ih]
  · intro model cs fs ih
    rw [Filter.literals_all, Criterion.literals_all, heach ih]
  · intro model cs fs ih
    rw [Filter.literals_any, Criterion.literals_any, heach ih]
  · intro r texts ids _ _ hconditions _ _
    rw [literals_records, Request.literals_eq,
      Request.filters_eq_none_of_hasConditions hconditions]
    rfl
  · intro r className model filter traversal _ _ _ ih _
    rw [literals_eq_of_named, Request.literals_eq, Filter.collects_literals.elim_keepFilter]
    generalize r.filters = criteria at ih
    cases ih with
    | none => rfl
    | some hliterals => exact hliterals

end Selection

-- ---------------------------------------------------------------------------
-- The placeholders of a draft
-- ---------------------------------------------------------------------------

/-- The name of the placeholder that a piece is. -/
def Segment.placeholderName? : Segment → Option String
  | .character _ => none
  | .placeholder digits => some (placeholderName digits)

/-- The placeholders of a statement are those of the pieces of its text. -/
theorem Statement.placeholders_eq (s : Statement) :
    s.placeholders = (segments s.text).filterMap Segment.placeholderName? := by
  rw [placeholders]
  congr 1

namespace Segment

/-- Characters by themselves are no placeholders. -/
theorem placeholders_characters (cs : List Char) :
    (cs.map Segment.character).filterMap placeholderName? = [] := by
  rw [List.filterMap_map]
  exact List.filterMap_eq_nil_iff.2 fun _ _ => rfl

end Segment

/-- The placeholders of a draft are numbered in order, one for each of its literals, and nothing in
its texts is another. -/
theorem Draft.placeholders_segments (n : Nat) (d : Draft) :
    (d.segments n).filterMap Segment.placeholderName? =
      (List.range' n d.literals.length).map Binder.name := by
  induction d generalizing n with
  | nil => rfl
  | cons fragment rest ih =>
    cases fragment with
    | text s =>
      rw [segments, List.filterMap_append, Segment.placeholders_characters, List.nil_append, ih,
        literals]
    | literal value =>
      rw [segments, literals, List.length_cons, List.range'_succ, List.map_cons, name_eq_stem_digits,
        ← ih]
      rfl

/-- The pieces of a draft with options around it are those of the draft, between characters. -/
theorem OuterOptions.segments_wrapText {options : OuterOptions} {d : Draft} (hd : d.Scans)
    (hopening : Plain options.opening) (hclosing : Plain options.closing) (n : Nat) :
    RecordQuery.segments (options.wrapText (d.spell n)) =
      options.opening.toList.map .character ++ (d.segments n ++
        options.closing.toList.map .character) := by
  have hrest := Segment.scan_plain hclosing []
  rw [List.append_nil, Segment.scan, List.append_nil] at hrest
  rw [RecordQuery.segments, wrapText_eq, String.toList_append, String.toList_append,
    List.append_assoc, Segment.scan_plain hopening, hd n _ options.halts_closing, hrest]

namespace Query

variable {schema : Schema} {limits : Limits}

/-- The statement of an accepted request, over a schema without a colon in its names, has one
placeholder for each literal of the request, in order, and binds them and no other names. -/
theorem placeholders_of_ofRequest {r : Request} {q : Query} (hschema : WithoutColon schema.names)
    (h : ofRequest schema limits r = .ok q) :
    q.toStatement.placeholders = (List.range r.literals.length).map Binder.name ∧
      (Dictionary.keys q.toStatement.params).Perm
        ((List.range r.literals.length).map Binder.name) ∧
      ∀ i (hi : i < r.literals.length),
        Dictionary.find? (Binder.name i) q.toStatement.params = some r.literals[i] := by
  obtain ⟨hprojection, horder⟩ := plain_options hschema h
  obtain ⟨-, selection, hselection, target, _, -, -, projection, -, hq⟩ := ofRequest_eq_ok.1 h
  have hsame : q.selection = selection := by rw [hq]
  rw [← hsame] at hselection
  have hliterals : q.selection.literals = r.literals := by
    rw [Selection.literals_of_ofRequest hselection, Request.literals_inner]
  have hnames : WithoutColon q.selection.names := fun name hname =>
    (Selection.names_of_ofRequest hselection name hname).withoutColon hschema
  rw [toStatement_eq_draft, ← hliterals]
  -- the options write plain text around the placeholders, and the draft numbers those from 0 on
  refine ⟨?_, ?_, ?_⟩
  · rw [Statement.placeholders_eq, OuterOptions.segments_wrapText (Selection.scans_draft hnames)
      (OuterOptions.plain_opening hprojection) (OuterOptions.plain_closing horder),
      List.filterMap_append, List.filterMap_append, Segment.placeholders_characters,
      Segment.placeholders_characters, Draft.placeholders_segments, List.range_eq_range']
    simp [Selection.literals]
  · have hkeys := Binder.keys_bindAll_perm {} q.selection.literals
      fun i _ hmem => by simp [Dictionary.keys] at hmem
    rw [List.range_eq_range']
    simpa [Dictionary.keys] using hkeys
  · intro i hi
    have hfound := Binder.find?_bindAll {} q.selection.literals hi
    rwa [Nat.zero_add] at hfound

/-- The people around those of an age, or of a name that looks like a placeholder. -/
def neighborsRequest : Request :=
  { Request.ofClass "Person" with
    filters := some (.any [
      .leaf ⟨"age", some .atLeast, .literal (.int 30), false⟩,
      .leaf ⟨"name", none, .literal (.string ":param0"), true⟩])
    edges := some ["Knows"]
    direction := some .both }

/-- A request with a nested one, an empty junction, and null both as absence and as a literal. -/
def friendsRequest : Request :=
  { Request.ofClass "Person" with
    filters := some (.all [
      .leaf ⟨"nickname", none, .literal .null, false⟩,
      .leaf ⟨"name", none, .literal (.string "Ann"), false⟩,
      .any [.all [], .leaf ⟨"friends", none, .request neighborsRequest, false⟩],
      .leaf ⟨"friends", some .contains, .literal .null, false⟩])
    returnProperties := some ["name", "friends.name"]
    orderBy := some ["age"]
    limit := some 5 }

/-- Absence is not bound, while null in a list is. The bound name that looks like a placeholder is
counted as a literal only. -/
theorem placeholders_of_friendsRequest :
    WithoutColon peopleSchema.names ∧
      friendsRequest.literals = [.string "Ann", .int 30, .string ":param0", .null] ∧
      ∃ q, ofRequest peopleSchema {} friendsRequest = .ok q ∧
        q.toStatement.placeholders = ["param0", "param1", "param2", "param3"] ∧
        (Dictionary.keys q.toStatement.params).Perm ["param0", "param1", "param2", "param3"] ∧
        Dictionary.find? "param2" q.toStatement.params = some (.string ":param0") := by
  have hschema : WithoutColon peopleSchema.names := by
    unfold WithoutColon
    decide
  obtain ⟨hplaceholders, hkeys, hvalues⟩ :=
    @placeholders_of_ofRequest peopleSchema {} friendsRequest _ hschema rfl
  exact ⟨hschema, rfl, _, rfl, hplaceholders, hkeys, hvalues 2 (by decide)⟩

end Query

end RecordQuery
