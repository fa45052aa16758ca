import RecordQuery.Proofs.Placeholders

/-!
# Statements with their literals written out

For logs a statement is shown with the value of each placeholder in its place. The placeholders are
looked up in the finished text, where a value that is put in, or a number that starts like another
one, could mislead the search. This module shows that nothing of the kind happens: what comes out is
the text that rendering would have written, had it written every literal where it stands.

* `Filter.written`, `Selection.written` — rendering without placeholders, literals as JSON texts.
* `Selection.written_eq_draft` — it writes the draft, with its literals.
* `Draft.display_segments` — showing the pieces of a draft writes its literals, if each is bound to
  its number.
* `Query.display_of_ofRequest` — the display form of an accepted request.
-/

namespace RecordQuery

-- ---------------------------------------------------------------------------
-- Rendering without placeholders
-- ---------------------------------------------------------------------------

mutual

/-- The text of a filter with its literals, if it has one. -/
def Filter.written : Filter → Option String
  | .leaf comparison => some (Comparison.written comparison)
  | .all children => junctionText "AND" (Filter.writtenEach children)
  | .any children => junctionText "OR" (Filter.writtenEach children)
  termination_by structural f => f

/-- The texts with literals of those filters that have one. -/
def Filter.writtenEach : List Filter → List String
  | [] => []
  | child :: rest => (Filter.written child).toList ++ Filter.writtenEach rest
  termination_by structural fs => fs

/-- The texts with literals of the conjuncts of a filter. -/
def Filter.writtenConjuncts : Filter → List String
  | .all children => Filter.writtenEach children
  | .leaf comparison => [Comparison.written comparison]
  | .any children => (junctionText "OR" (Filter.writtenEach children)).toList
  termination_by structural f => f

/-- The text of a comparison with its literal. -/
def Comparison.written : Comparison → String
  | ⟨property, operator, operand, negated⟩ =>
    negationText negated (Operand.written operand property operator)
  termination_by structural c => c

/-- The text of the comparison of a property with an operand. A literal stands there as JSON. -/
def Operand.written : Operand → String → Operator → String
  | .literal value, property, operator =>
    if value.isNull && operator = .equal then absenceText property
    else property ++ " " ++ operator.keyword ++ " " ++ value.text
  | .selection selection, property, operator =>
    property ++ " " ++ operator.selectionKeyword ++ " (" ++ Selection.written selection ++ ")"
  termination_by structural o => o

/-- The text of a selection with its literals. -/
def Selection.written : Selection → String
  | ⟨.records ids, _, _, _⟩ => recordsText ids
  | ⟨.named className, none, history, traversal⟩ =>
    let condition := if history then none else some (absenceText deletionTime)
    Traversal.text traversal className condition false
  | ⟨.named className, some filter, true, traversal⟩ =>
    Traversal.text traversal className (Filter.written filter) filter.rendersGrouped
  | ⟨.named className, some filter, false, traversal⟩ =>
    Traversal.text traversal className
      (junctionText "AND" (Filter.writtenConjuncts filter ++ [absenceText deletionTime]))
      (filter.andAlso Filter.active).rendersGrouped
  termination_by structural s => s

end

namespace Filter

/-- The written texts of filters one behind the other. -/
theorem writtenEach_append (front back : List Filter) :
    writtenEach (front ++ back) = writtenEach front ++ writtenEach back := by
  induction front with
  | nil => rfl
  | cons f rest ih => rw [List.cons_append, writtenEach, ih, writtenEach, List.append_assoc]

theorem written_active : active.written = some (absenceText deletionTime) := by
  simp [active, Comparison.isNull, Comparison.equals, written, Comparison.written,
    Operand.written, Value.isNull, negationText]

/-- What is written of a filter with the condition that records are active behind it. -/
theorem written_andAlso_active (f : Filter) :
    (f.andAlso active).written =
      junctionText "AND" (writtenConjuncts f ++ [absenceText deletionTime]) := by
  cases f with
  | leaf comparison => simp [andAlso, written, writtenEach, writtenConjuncts, written_active]
  | all children =>
    simp [andAlso, written, writtenEach, writtenEach_append, writtenConjuncts, written_active]
  | any children => simp [andAlso, written, writtenEach, writtenConjuncts, written_active]

end Filter

/-- The text of a selection of a class is its traversal around that of its effective filter. -/
theorem Selection.written_named (className : String) (filter : Option Filter) (history : Bool)
    (traversal : Option Traversal) :
    let s : Selection := ⟨.named className, filter, history, traversal⟩
    s.written = Traversal.text traversal className (s.effectiveFilter.bind Filter.written)
      (s.effectiveFilter.any Filter.rendersGrouped) := by
  cases filter <;> cases history <;>
    simp [written, effectiveFilter, Filter.written_active, Filter.written_andAlso_active,
      Filter.rendersGrouped_active]

-- ---------------------------------------------------------------------------
-- Drafts with their literals
-- ---------------------------------------------------------------------------

namespace Draft

/-- The text of a draft with its literals. -/
def written : Draft → String
  | [] => ""
  | .text s :: rest => s ++ written rest
  | .literal value :: rest => value.text ++ written rest

/-- Drafts one behind the other are written one behind the other. -/
theorem written_append (front back : Draft) :
    written (front ++ back) = written front ++ written back := by
  induction front with
  | nil => simp [written]
  | cons fragment rest ih => cases fragment <;> simp [written, ih, String.append_assoc]

/-- A negated draft is written as a negated text. -/
theorem written_negation (negated : Bool) (body : Draft) :
    written (negation negated body) = negationText negated (written body) := by
  cases negated with
  | false => simp [negation, negationText]
  | true => simp [negation, negationText, written, written_append, String.append_assoc]

/-- Drafts with a separator between them are written with it between their texts. -/
theorem written_intercalate (separator : String) (drafts : List Draft) :
    written ([Fragment.text separator].intercalate drafts) =
      separator.intercalate (drafts.map written) := by
  induction drafts with
  | nil => simp [written]
  | cons draft rest ih =>
    cases rest with
    | nil => simp
    | cons next rest =>
      rw [List.intercalate_cons_cons, List.append_assoc, written_append, written_append, ih]
      simp [written, String.append_assoc]

/-- A junction of drafts is written as the junction of their texts. -/
theorem written_junction (joiner : String) (drafts : List Draft) :
    (junction joiner drafts).map written = junctionText joiner (drafts.map written) := by
  match drafts with
  | [] => rfl
  | [draft] => simp [junction, junctionText]
  | first :: second :: rest =>
    simp only [junction, junctionText, Option.map_some, List.map_cons, List.cons_append, written,
      written_append, written_intercalate, String.append_empty, String.append_assoc]

end Draft

/-- A selection around the draft of its condition is written around the text of it. -/
theorem Traversal.written_draft (traversal : Option Traversal) (className : String)
    (condition : Option Draft) (grouped : Bool) :
    (draft traversal className condition grouped).written =
      text traversal className (condition.map Draft.written) grouped := by
  cases condition with
  | none => simp [draft, Draft.written]
  | some condition =>
    simp [draft, Draft.written, Draft.written_append, text_some, String.append_assoc]

/-- Filters with a written text each are written as their drafts are. -/
theorem Filter.writtenEach_eq_draft {fs : List Filter}
    (h : ∀ f ∈ fs, f.written = f.draft.map Draft.written) :
    writtenEach fs = (draftEach fs).map Draft.written := by
  induction fs with
  | nil => rfl
  | cons f rest ih =>
    have hrest := ih fun g hg => h g (List.mem_cons_of_mem _ hg)
    rw [writtenEach, draftEach, h f (List.mem_cons_self ..), hrest, List.map_append]
    cases f.draft <;> rfl

/-- Rendering without placeholders writes the draft with its literals. The two agree piece by piece,
by induction over filters and selections at once. -/
theorem written_eq_draft :
    (∀ f : Filter, f.written = f.draft.map Draft.written) ∧
      ∀ s : Selection, s.written = s.draft.written := by
  refine Selection.induction ?_ ?_ ?_ ?_ ?_
  · intro property operator value negated
    rw [Filter.written, Comparison.written, Operand.written, Filter.draft, Comparison.draft,
      Operand.draft, Option.map_some, Draft.written_negation]
    split <;> simp [Draft.written]
  · intro property operator s negated ih
    rw [Filter.written, Comparison.written, Operand.written, Filter.draft, Comparison.draft,
      Operand.draft, Option.map_some, Draft.written_negation, ih]
    simp [Draft.written, Draft.written_append, String.append_assoc]
  -- the members have their equations from the induction, and junctions of drafts and texts agree
  · intro children ih
    rw [Filter.written, Filter.draft, Filter.writtenEach_eq_draft ih, Draft.written_junction]
  · intro children ih
    rw [Filter.written, Filter.draft, Filter.writtenEach_eq_draft ih, Draft.written_junction]
  · rintro ⟨target, filter, history, traversal⟩ - heffective
    cases target with
    | records ids => simp [Selection.written, Selection.draft, Draft.written]
    | named className =>
      rw [Selection.written_named, Selection.draft_named, Traversal.written_draft]
      generalize Selection.effectiveFilter ⟨.named className, filter, history, traversal⟩ = e
        at heffective
      cases e with
      | none => rfl
      | some f => simp [heffective f rfl]

/-- What is written of a selection is its draft with the literals in it. -/
theorem Selection.written_eq_draft (s : Selection) : s.written = s.draft.written :=
  RecordQuery.written_eq_draft.2 s

-- ---------------------------------------------------------------------------
-- Showing a statement
-- ---------------------------------------------------------------------------

/-- Plain characters are shown as they are. -/
theorem Statement.display_characters (params : Params) (cs : List Char) :
    (cs.map Segment.character).flatMap (displaySegment params) = cs := by
  rw [List.flatMap_map]
  simp [displaySegment]

/-- Showing the pieces of a draft writes its literals, if each is bound to its number. A literal
that looks like a placeholder is one piece, and is not looked at again. -/
theorem Draft.display_segments {n : Nat} {d : Draft} {params : Params}
    (h : ∀ i (hi : i < d.literals.length),
      Dictionary.find? (Binder.name (n + i)) params = some d.literals[i]) :
    (d.segments n).flatMap (Statement.displaySegment params) = d.written.toList := by
  induction d generalizing n with
  | nil => rfl
  | cons fragment rest ih =>
    cases fragment with
    | text s =>
      rw [segments, List.flatMap_append, Statement.display_characters, ih h, written,
        String.toList_append]
    | literal value =>
      -- the first literal has number `n`, and those behind it the numbers from `n + 1` on
      have hfirst : Dictionary.find? (Binder.name n) params = some value :=
        h 0 (Nat.zero_lt_succ _)
      have hrest : ∀ i (hi : i < (literals rest).length),
          Dictionary.find? (Binder.name (n + 1 + i)) params = some (literals rest)[i] := by
        intro i hi
        have hnext : n + 1 + i = n + (i + 1) := by omega
        rw [hnext]
        exact h (i + 1) (Nat.succ_lt_succ hi)
      have hshown : Statement.displaySegment params (.placeholder (Nat.toDigits 10 n)) =
          value.text.toList := by
        rw [Statement.displaySegment, ← name_eq_stem_digits, hfirst]
      rw [segments, List.flatMap_cons, hshown, ih hrest, written, String.toList_append]

namespace Query

variable {schema : Schema} {limits : Limits}

/-- The display form of an accepted request, over a schema without a colon in its names, is what
rendering its selection with the literals in place and the options around it would have written. -/
theorem display_of_ofRequest {r : Request} {q : Query} (hschema : WithoutColon schema.names)
    (h : ofRequest schema limits r = .ok q) :
    q.display = q.options.wrapText q.selection.written := by
  obtain ⟨hprojection, horder⟩ := plain_options hschema h
  -- the placeholders in the text are exactly those of the draft, since no name holds a colon
  have hnames : WithoutColon q.selection.names := by
    obtain ⟨-, selection, hselection, -, -, -, -, -, -, rfl⟩ := ofRequest_eq_ok.1 h
    exact fun name hname =>
      (Selection.names_of_ofRequest hselection name hname).withoutColon hschema
  have hbound : ∀ i (hi : i < q.selection.draft.literals.length),
      Dictionary.find? (Binder.name (0 + i)) (Binder.bindAll {} q.selection.literals).params =
        some q.selection.draft.literals[i] :=
    fun i hi => Binder.find?_bindAll {} q.selection.literals hi
  have hpieces := OuterOptions.segments_wrapText (Selection.scans_draft hnames)
    (OuterOptions.plain_opening hprojection) (OuterOptions.plain_closing horder) 0
  rw [display, toStatement_eq_draft, Statement.display]
  dsimp only
  rw [hpieces, List.flatMap_append, List.flatMap_append, Statement.display_characters,
    Statement.display_characters, Draft.display_segments hbound, OuterOptions.wrapText_eq,
    Selection.written_eq_draft, String.ofList_append, String.ofList_append, String.ofList_toList,
    String.ofList_toList, String.ofList_toList, String.append_assoc]

/-- More literals than ten, of which two look like placeholders, under a projection with a colon. -/
def crowdedRequest : Request :=
  { Request.ofClass "Person" with
    filters := some (.any
      (.leaf ⟨"name", none, .literal (.string ":param1"), true⟩ ::
        .leaf ⟨"nickname", some .isIn, .literal (.list [.string ":param10", .null]), false⟩ ::
        (List.range 9).map fun n => .leaf ⟨"age", some .equal, .literal (.int (.ofNat n)), false⟩))
    returnProperties := some ["friends.name"] }

/-- Eleven literals, so that there is a `:param1` and a `:param10`, and two literals that look like
them. -/
theorem display_of_crowdedRequest :
    WithoutColon peopleSchema.names ∧ ∃ q, ofRequest peopleSchema {} crowdedRequest = .ok q ∧
      q.selection.literals.length = 11 ∧
      q.display = q.options.wrapText q.selection.written ∧
      q.display = "SELECT friends:\x7bname\x7d FROM (SELECT * FROM Person WHERE " ++
        "((NOT (name = \":param1\") OR nickname IN [\":param10\",null] OR age = 0 OR age = 1 " ++
        "OR age = 2 OR age = 3 OR age = 4 OR age = 5 OR age = 6 OR age = 7 OR age = 8) " ++
        "AND deletedAt IS NULL))" := by
  have hschema : WithoutColon peopleSchema.names := by
    unfold WithoutColon
    decide
  have hdisplay := @display_of_ofRequest peopleSchema {} crowdedRequest _ hschema rfl
  refine ⟨hschema, _, rfl, by decide, hdisplay, ?_⟩
  rw [hdisplay]
  decide +kernel

end Query

end RecordQuery
