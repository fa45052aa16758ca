import RecordQuery.Selection.Basic
import RecordQuery.Statement

/-!
# The text of filters and selections

Rendering writes a filter or a selection and binds its literals, from left to right, to the
placeholders of one binder that is handed along.

A junction of two or more texts is put between parentheses, so that reading it needs no precedence
of AND over OR; a junction of one text is that text, and one of none has no text. Equality with null
is written `IS NULL` and binds nothing; equality with a selection asks for membership. The condition
that records are active is the last conjunct of the filter of a selection, at every level by itself.

* `render_named`: the text of a selection of a class is its traversal around the text of its
  effective filter.
-/

namespace RecordQuery

/-- The text of a junction of texts. -/
def junctionText (joiner : String) : List String → Option String
  | [] => none
  | [text] => some text
  | texts => some ("(" ++ (" " ++ joiner ++ " ").intercalate texts ++ ")")

/-- The text of a comparison under a negation. -/
def negationText (negated : Bool) (body : String) : String :=
  if negated then "NOT (" ++ body ++ ")" else body

/-- The text of the absence of a property. -/
def absenceText (property : String) : String := property ++ " IS NULL"

/-- The text that names records by their ids. -/
def recordsText (ids : List RecordId) : String :=
  "SELECT * FROM [" ++ ", ".intercalate (ids.map RecordId.text) ++ "]"

/-- The keyword in front of a nested selection. -/
def Operator.selectionKeyword : Operator → String
  | .equal => Operator.isIn.keyword
  | operator => operator.keyword

mutual

/-- The text of a filter, if it has one. -/
def Filter.render : Filter → Binder → Option String × Binder
  | .leaf comparison, b =>
    let (text, b) := Comparison.render comparison b
    (some text, b)
  | .all children, b =>
    let (texts, b) := Filter.renderEach children b
    (junctionText "AND" texts, b)
  | .any children, b =>
    let (texts, b) := Filter.renderEach children b
    (junctionText "OR" texts, b)
  termination_by structural f => f

/-- The texts of those filters that have one. -/
def Filter.renderEach : List Filter → Binder → List String × Binder
  | [], b => ([], b)
  | child :: rest, b =>
    let (text, b) := Filter.render child b
    let (texts, b) := Filter.renderEach rest b
    (text.toList ++ texts, b)
  termination_by structural fs => fs

/-- The texts of the conjuncts of a filter: of the members of a conjunction, or of the filter. -/
def Filter.renderConjuncts : Filter → Binder → List String × Binder
  | .all children, b => Filter.renderEach children b
  | .leaf comparison, b =>
    let (text, b) := Comparison.render comparison b
    ([text], b)
  | .any children, b =>
    let (texts, b) := Filter.renderEach children b
    ((junctionText "OR" texts).toList, b)
  termination_by structural f => f

/-- The text of a comparison. -/
def Comparison.render : Comparison → Binder → String × Binder
  | ⟨property, operator, operand, negated⟩, b =>
    let (body, b) := Operand.render operand property operator b
    (negationText negated body, b)
  termination_by structural c => c

/-- The text of the comparison of a property with an operand. -/
def Operand.render : Operand → String → Operator → Binder → String × Binder
  | .literal value, property, operator, b =>
    if value.isNull && operator = .equal then (absenceText property, b)
    else
      let (name, b) := b.bind value
      (property ++ " " ++ operator.keyword ++ " :" ++ name, b)
  | .selection selection, property, operator, b =>
    let (text, b) := Selection.render selection b
    (property ++ " " ++ operator.selectionKeyword ++ " (" ++ text ++ ")", b)
  termination_by structural o => o

/-- The text of a selection. -/
def Selection.render : Selection → Binder → String × Binder
  | ⟨.records ids, _, _, _⟩, b => (recordsText ids, b)
  | ⟨.named className, none, history, traversal⟩, b =>
    let s : Selection := ⟨.named className, none, history, traversal⟩
    let condition := if history then none else some (absenceText deletionTime)
    (Traversal.text traversal className condition (s.effectiveFilter.any Filter.rendersGrouped), b)
  | ⟨.named className, some filter, true, traversal⟩, b =>
    let (condition, b) := Filter.render filter b
    (Traversal.text traversal className condition filter.rendersGrouped, b)
  | ⟨.named className, some filter, false, traversal⟩, b =>
    let (conjuncts, b) := Filter.renderConjuncts filter b
    let condition := junctionText "AND" (conjuncts ++ [absenceText deletionTime])
    (Traversal.text traversal className condition
      (filter.andAlso Filter.active).rendersGrouped, b)
  termination_by structural s => s

end

namespace Filter

theorem renderEach_append (front back : List Filter) (b : Binder) :
    renderEach (front ++ back) b =
      ((renderEach front b).1 ++ (renderEach back (renderEach front b).2).1,
        (renderEach back (renderEach front b).2).2) := by
  induction front generalizing b with
  | nil => simp [renderEach]
  | cons child rest ih => simp [renderEach, ih]

theorem render_active (b : Binder) : render active b = (some (absenceText deletionTime), b) := by
  simp [active, Comparison.isNull, Comparison.equals, render, Comparison.render, Operand.render,
    Value.isNull, negationText]

theorem render_andAlso_active (f : Filter) (b : Binder) :
    render (f.andAlso active) b =
      (junctionText "AND" ((renderConjuncts f b).1 ++ [absenceText deletionTime]),
        (renderConjuncts f b).2) := by
  cases f with
  | leaf comparison => simp [andAlso, render, renderEach, renderConjuncts, render_active]
  | all children =>
    simp [andAlso, render, renderEach, renderEach_append, renderConjuncts, render_active]
  | any children => simp [andAlso, render, renderEach, renderConjuncts, render_active]

end Filter

namespace Selection

/-- The condition of a selection: the text of its effective filter. -/
def condition (s : Selection) (b : Binder) : Option String × Binder :=
  match s.effectiveFilter with
  | none => (none, b)
  | some filter => filter.render b

theorem render_records (ids : List RecordId) (filter : Option Filter) (history : Bool)
    (traversal : Option Traversal) (b : Binder) :
    render ⟨.records ids, filter, history, traversal⟩ b = (recordsText ids, b) := by
  simp [render]

theorem render_named (className : String) (filter : Option Filter) (history : Bool)
    (traversal : Option Traversal) (b : Binder) :
    let s : Selection := ⟨.named className, filter, history, traversal⟩
    s.render b =
      (Traversal.text traversal className (s.condition b).1
        (s.effectiveFilter.any Filter.rendersGrouped), (s.condition b).2) := by
  cases filter <;> cases history <;>
    simp [render, condition, effectiveFilter, Filter.render_active, Filter.render_andAlso_active]

/-- The statement of a selection by itself, with placeholders from number zero. -/
def toStatement (s : Selection) : Statement :=
  let (text, b) := s.render {}
  ⟨text, b.params⟩

/-- Explicit records are listed between brackets, and nothing is bound. -/
theorem toStatement_ofRecords (ids : List RecordId) (history : Bool) :
    (ofRecords ids history).toStatement =
      ⟨"SELECT * FROM [" ++ ", ".intercalate (ids.map RecordId.text) ++ "]", []⟩ := by
  rw [toStatement, ofRecords, render_records]
  rfl

end Selection

end RecordQuery
