import RecordQuery.Proofs.Simplification

/-!
# The roots of a traversal

A selection of a class is written in one of three forms: by itself, inside a walk, or as the root of
a pattern. Each form puts the same condition in its own place. The pattern wants the condition
between one pair of parentheses, and whether it has one already is told from the filter and not from
the text, so tree and text have to agree.

* `Forms` — the texts of one selection in the three forms, around one condition or none.
* `Selection.forms_render` — the three forms of a selection, at every state of the binder.
-/

namespace RecordQuery

/-- The texts of a selection of a class, by its traversal: all of them ask for every record of the
class, or all of them for those that meet one condition. -/
inductive Forms (className : String) (text : Option Traversal → String) : Prop where
  | unconditional
      (plain : text none = "SELECT * FROM " ++ className)
      (walk : ∀ edges direction maxDepth, text (some (.walk edges direction maxDepth)) =
        "TRAVERSE " ++ Traversal.edgeCall direction edges ++ " FROM (SELECT * FROM " ++ className ++
          ") MAXDEPTH " ++ toString maxDepth)
      (neighborhood : ∀ edges direction depth, text (some (.neighborhood edges direction depth)) =
        "SELECT * FROM (MATCH \x7bclass: " ++ className ++ "\x7d." ++
          Traversal.edgeCall direction edges ++ "\x7bWHILE: ($depth < " ++ toString depth ++
          ")\x7d RETURN DISTINCT $pathElements)")
  | conditional (condition group : String)
      (grouped : IsGroup condition ∧ group = condition ∨
        ¬ IsGroup condition ∧ group = "(" ++ condition ++ ")")
      (plain : text none = "SELECT * FROM " ++ className ++ " WHERE " ++ condition)
      (walk : ∀ edges direction maxDepth, text (some (.walk edges direction maxDepth)) =
        "TRAVERSE " ++ Traversal.edgeCall direction edges ++ " FROM (SELECT * FROM " ++ className ++
          " WHERE " ++ condition ++ ") MAXDEPTH " ++ toString maxDepth)
      (neighborhood : ∀ edges direction depth, text (some (.neighborhood edges direction depth)) =
        "SELECT * FROM (MATCH \x7bclass: " ++ className ++ ", WHERE: " ++ group ++ "\x7d." ++
          Traversal.edgeCall direction edges ++ "\x7bWHILE: ($depth < " ++ toString depth ++
          ")\x7d RETURN DISTINCT $pathElements)")

namespace Forms

variable {className : String}

/-- The three forms without a condition, whatever is said about a group. -/
theorem text_none (grouped : Bool) : Forms className fun traversal =>
    Traversal.text traversal className none grouped := by
  refine .unconditional rfl (fun edges direction maxDepth => ?_) fun edges direction depth => ?_
  · exact Traversal.text_walk_none edges direction maxDepth className grouped
  · exact Traversal.text_neighborhood_none edges direction depth className grouped

/-- The forms around a condition of which it is known whether it is a group. -/
theorem text_some {condition : String} {grouped : Bool}
    (hgrouped : grouped = true ↔ IsGroup condition) : Forms className fun traversal =>
      Traversal.text traversal className (some condition) grouped := by
  refine .conditional condition (if grouped then condition else "(" ++ condition ++ ")") ?_ rfl
    (fun edges direction maxDepth => ?_) fun edges direction depth => ?_
  · cases grouped with
    | true => exact .inl ⟨hgrouped.1 rfl, rfl⟩
    | false => exact .inr ⟨fun h => Bool.false_ne_true (hgrouped.2 h), rfl⟩
  · exact Traversal.text_walk_some edges direction maxDepth className condition grouped
  · exact Traversal.text_neighborhood_some edges direction depth className condition grouped

end Forms

namespace Selection

/-- The forms of a selection are written around one condition, or none of them has one. Whether it
is grouped is told by the filter, and seen from the text. -/
theorem forms_condition {s : Selection} {className : String} (b : Binder)
    (hcondition : ∀ f ∈ s.effectiveFilter, ∀ name ∈ f.names, IsUnbroken name) :
    Forms className fun traversal => Traversal.text traversal className (s.condition b).1
      (s.effectiveFilter.any Filter.rendersGrouped) := by
  unfold condition
  cases heffective : s.effectiveFilter with
  | none => exact Forms.text_none _
  | some f =>
    have hgrouped := Filter.rendersGrouped_iff (hcondition f heffective) b.next
    dsimp only [Option.any_some]
    rw [Filter.render_eq_draft]
    cases hdraft : f.draft with
    | none => exact Forms.text_none _
    | some d => exact Forms.text_some (hgrouped d hdraft)

/-- A traversal around a selection of a class, no name of which is broken by a blank or a
parenthesis, binds what the selection binds by itself, under the same names, and takes its roots by
the same condition. -/
theorem forms_render (className : String) (filter : Option Filter) (history : Bool) (b : Binder)
    (hnames : ∀ name ∈ (ofClass className filter history).names, IsUnbroken name) :
    (∀ traversal, (render ⟨.named className, filter, history, traversal⟩ b).2 =
        (render (ofClass className filter history) b).2) ∧
      Forms className fun traversal =>
        (render ⟨.named className, filter, history, traversal⟩ b).1 := by
  let s := ofClass className filter history
  have hrender : ∀ traversal, render ⟨.named className, filter, history, traversal⟩ b =
      (Traversal.text traversal className (s.condition b).1
        (s.effectiveFilter.any Filter.rendersGrouped), (s.condition b).2) :=
    fun traversal => render_named className filter history traversal b
  have hcondition : ∀ f ∈ s.effectiveFilter, ∀ name ∈ f.names, IsUnbroken name := by
    -- the deletion test adds one name, and that is one word as well
    intro f hf name hname
    rcases mem_names_effectiveFilter hf hname with hname | rfl
    · exact hnames name hname
    · decide
  constructor
  · intro traversal
    rw [ofClass, hrender, hrender]
  · simp only [hrender]
    exact forms_condition b hcondition

/-- A group below junctions of one member and beside an empty one, with a negation and a nested walk
in it. -/
def ringFilter : Filter :=
  .any [.all [.any []], .all [.any [
    .leaf ⟨"nickname", .equal, .literal .null, true⟩,
    .leaf ⟨"friends", .containsAny, .selection ⟨.named "Person",
      some (.leaf ⟨"name", .equal, .literal (.string "(Ann"), false⟩), false,
      some (.walk ["Knows"] .outgoing 3)⟩, false⟩]]]

/-- A group below several junctions is a group, and its text is not put in parentheses again. -/
theorem forms_render_ringFilter :
    (∀ name ∈ (ofClass "Person" (some ringFilter) true).names, IsUnbroken name) ∧
      (∀ traversal, (render ⟨.named "Person", some ringFilter, true, traversal⟩ {}).2.next = 1) ∧
      (Forms "Person" fun traversal =>
        (render ⟨.named "Person", some ringFilter, true, traversal⟩ {}).1) ∧
      (render ⟨.named "Person", some ringFilter, true, some (.neighborhood [] .both 2)⟩ {}).1 =
        "SELECT * FROM (MATCH \x7bclass: Person, WHERE: (NOT (nickname IS NULL) OR " ++
          "friends CONTAINSANY (TRAVERSE out('Knows') FROM (SELECT * FROM Person WHERE " ++
          "(name = :param0 AND deletedAt IS NULL)) MAXDEPTH 3))\x7d.both()\x7bWHILE: " ++
          "($depth < 2)\x7d RETURN DISTINCT $pathElements)" := by
  have hnames : ∀ name ∈ (ofClass "Person" (some ringFilter) true).names, IsUnbroken name := by
    decide
  obtain ⟨hbinder, hforms⟩ := forms_render "Person" (some ringFilter) true {} hnames
  refine ⟨hnames, fun traversal => ?_, hforms, by decide +kernel⟩
  rw [hbinder]
  rfl

end Selection

end RecordQuery
