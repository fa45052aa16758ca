import RecordQuery.Proofs.Criteria
import RecordQuery.Proofs.Levels

/-!
# Selections keep to active records

The condition of a selection stands behind `WHERE`, by itself or inside the pattern or the walk of a
traversal. It says what the criteria of the request say, and that records are active unless that
request asks for the history. Each level answers for itself: what a request says about the history
does not carry over to the requests nested in it.

* `Selection.whereText` — the text behind `WHERE`.
* `Traversal.Places`, `Selection.places_render` — where it stands, in each of the three forms.
* `Selection.read_whereText` — it is read as the condition of the selection.
* `Selection.keepsToActive_of_ofRequest` — what it says, at every level of an accepted request.
-/

namespace RecordQuery

variable {schema : Schema} {limits : Limits}

-- ---------------------------------------------------------------------------
-- The text behind `WHERE`
-- ---------------------------------------------------------------------------

namespace Traversal

/-- The text of a selection of a class in each of its three forms, with the condition in its place
or without one: behind the class itself, behind the class in the roots of a walk, or in the root of
a pattern. -/
inductive Places (className : String) : Option Traversal → Option String → String → Prop where
  | plain : Places className none none ("SELECT * FROM " ++ className)
  | plainWhere (condition : String) : Places className none (some condition)
      ("SELECT * FROM " ++ className ++ " WHERE " ++ condition)
  | walk (edges : List String) (direction : Direction) (maxDepth : UInt32) :
      Places className (some (.walk edges direction maxDepth)) none
        ("TRAVERSE " ++ edgeCall direction edges ++ " FROM (SELECT * FROM " ++ className ++
          ") MAXDEPTH " ++ toString maxDepth)
  | walkWhere (edges : List String) (direction : Direction) (maxDepth : UInt32)
      (condition : String) :
      Places className (some (.walk edges direction maxDepth)) (some condition)
        ("TRAVERSE " ++ edgeCall direction edges ++ " FROM (SELECT * FROM " ++ className ++
          " WHERE " ++ condition ++ ") MAXDEPTH " ++ toString maxDepth)
  | pattern (edges : List String) (direction : Direction) (depth : UInt32) :
      Places className (some (.neighborhood edges direction depth)) none
        ("SELECT * FROM (MATCH \x7bclass: " ++ className ++ "\x7d." ++ edgeCall direction edges ++
          "\x7bWHILE: ($depth < " ++ toString depth ++ ")\x7d RETURN DISTINCT $pathElements)")
  | patternWhere (edges : List String) (direction : Direction) (depth : UInt32)
      (condition : String) :
      Places className (some (.neighborhood edges direction depth)) (some condition)
        ("SELECT * FROM (MATCH \x7bclass: " ++ className ++ ", WHERE: " ++ condition ++ "\x7d." ++
          edgeCall direction edges ++ "\x7bWHILE: ($depth < " ++ toString depth ++
          ")\x7d RETURN DISTINCT $pathElements)")

/-- A condition that has the parentheses that its form wants stands in its place: behind the class,
behind the class in the roots of a walk, or in the root of a pattern. -/
theorem places_text (traversal : Option Traversal) (className : String)
    (condition : Option String) :
    Places className traversal condition (text traversal className condition true) := by
  -- three forms, each with and without a condition
  rcases traversal with _ | (⟨edges, direction, depth⟩ | ⟨edges, direction, maxDepth⟩)
  · cases condition with
    | none => exact .plain
    | some condition => exact .plainWhere condition
  · cases condition with
    | none =>
      rw [text_neighborhood_none]
      exact .pattern edges direction depth
    | some condition =>
      rw [text_neighborhood_some]
      exact .patternWhere edges direction depth condition
  · cases condition with
    | none =>
      rw [text_walk_none]
      exact .walk edges direction maxDepth
    | some condition =>
      rw [text_walk_some]
      exact .walkWhere edges direction maxDepth condition

/-- The condition as it stands behind `WHERE`: a pattern has it in parentheses. -/
def enclosed (traversal : Option Traversal) (grouped : Bool) (condition : String) : String :=
  match traversal with
  | some (.neighborhood _ _ _) => if grouped then condition else "(" ++ condition ++ ")"
  | _ => condition

/-- Where a condition has its parentheses already, it stands as it is behind `WHERE`. -/
theorem text_enclosed (traversal : Option Traversal) (className : String)
    (condition : Option String) (grouped : Bool) :
    text traversal className (condition.map (enclosed traversal grouped)) true =
      text traversal className condition grouped := by
  rcases traversal with _ | (⟨edges, direction, depth⟩ | ⟨edges, direction, maxDepth⟩) <;>
    cases condition <;> rfl

/-- A condition is read the same way with parentheses around it. So the three forms need not be told
apart any further: a pattern adds the parentheses, and the other two do not. -/
theorem read_enclosed {traversal : Option Traversal} {grouped : Bool} {condition : String}
    {items : List Item} {e : Condition} (hreads : Item.Reads (lexemes condition) items)
    (hfactor : Condition.IsFactor items e) :
    Condition.read? (enclosed traversal grouped condition) = some e := by
  have hplain : Condition.read? condition = some e := by
    rw [Condition.read?_eq hreads, hfactor.expression]
  have hgroup : Condition.read? ("(" ++ condition ++ ")") = some e := by
    have hinside := hreads.group
    rw [← lexemes_parentheses, hfactor.expression] at hinside
    rw [Condition.read?_eq hinside, (Condition.IsFactor.group _ _).expression]
  -- of the two parentheses one pair is enough, and both texts mean the condition
  unfold enclosed
  split
  · split
    · exact hplain
    · exact hgroup
  · exact hplain

end Traversal

namespace Selection

/-- What stands behind `WHERE` in the text of a selection of a class. -/
def whereText (s : Selection) (b : Binder) : Option String :=
  (s.condition b).1.map
    (Traversal.enclosed s.traversal (s.effectiveFilter.any Filter.rendersGrouped))

/-- A selection of a class is written as its traversal around the text behind `WHERE`. -/
theorem render_eq_whereText {s : Selection} {className : String}
    (htarget : s.target = .named className) (b : Binder) :
    (s.render b).1 = Traversal.text s.traversal className (s.whereText b) true := by
  obtain ⟨target, filter, history, traversal⟩ := s
  cases htarget
  rw [render_named, whereText, Traversal.text_enclosed]

/-- The text of a selection of a class is one of the three forms around the text behind `WHERE`. -/
theorem places_render {s : Selection} {className : String} (htarget : s.target = .named className)
    (b : Binder) : Traversal.Places className s.traversal (s.whereText b) (s.render b).1 := by
  rw [render_eq_whereText htarget]
  exact Traversal.places_text s.traversal className (s.whereText b)

/-- Without a text behind `WHERE` there is no condition. -/
theorem isMet_of_whereText_eq_none {s : Selection} (h : ∀ f ∈ s.filter, f.isEmpty = false)
    {b : Binder} (hnone : s.whereText b = none) (truth : Nat → Bool) : s.isMet truth = true := by
  rw [whereText, Option.map_eq_none_iff, condition] at hnone
  rw [isMet]
  cases hfilter : s.effectiveFilter with
  | none => rfl
  | some f =>
    rw [hfilter] at hnone
    dsimp only at hnone
    rw [Filter.render_fst_eq_none_iff, isEmpty_of_mem_effectiveFilter h hfilter] at hnone
    cases hnone

/-- The text behind `WHERE` is read as a condition that means the effective filter: it has the
comparisons of that filter, in their order, and is true under the same truth values of these. -/
theorem read_whereText {s : Selection} {b : Binder} {text : String}
    (hnames : ∀ f ∈ s.effectiveFilter, ∀ name ∈ f.names, IsName name)
    (h : s.whereText b = some text) :
    ∃ e, Condition.read? text = some e ∧
      e.comparisons = (Comparison.bodies s.comparisons b).map lexemes ∧
      ∀ truth, e.holds truth 0 = s.isMet truth := by
  rw [whereText, condition] at h
  rw [comparisons]
  -- a text stands behind `WHERE` only if there is an effective filter
  cases hfilter : s.effectiveFilter with
  | none =>
    rw [hfilter] at h
    cases h
  | some f =>
    rw [hfilter] at h
    dsimp only at h
    rw [Filter.render_eq_draft, Option.map_map] at h
    obtain ⟨d, hd, rfl⟩ := Option.map_eq_some_iff.1 h
    obtain ⟨items, e, hreads, hmeans⟩ := Filter.exists_reading (hnames f hfilter) d hd b.next
    refine ⟨e, ?_, ?_, fun truth => ?_⟩
    · exact Traversal.read_enclosed hreads hmeans.factor
    · rw [Option.elim_some, hmeans.comparisons, Comparison.bodies_eq]
    · rw [hmeans.holds, isMet, hfilter, Option.all_some]

-- ---------------------------------------------------------------------------
-- What the condition says
-- ---------------------------------------------------------------------------

/-- The condition of a selection of a class says that the criteria of the request are true, and that
records are active unless the request asks for the history. -/
structure KeepsToActive (schema : Schema) (limits : Limits) (r : Request) (model : ClassModel)
    (s : Selection) : Prop where
  target : s.target = .named model.name
  traversal : r.traversal schema limits = .ok s.traversal
  /-- The comparisons are those of the request, and behind them that of the deletion time. -/
  comparisons : ∃ own, List.Forall₂ (fun wanted d =>
      WantedComparison.lower schema limits model wanted = .ok d) r.comparisons own ∧
    s.comparisons = own ++ if r.history then [] else [Comparison.isNull deletionTime]
  holds : ∀ truth, s.isMet truth = (r.isMet truth && (r.history || truth r.comparisons.length))
  text : ∀ b, (s.render b).1 = Traversal.text s.traversal model.name (s.whereText b) true
  /-- The condition stands in its place in the form that the traversal asks for. -/
  places : ∀ b, Traversal.Places model.name s.traversal (s.whereText b) (s.render b).1
  /-- Without a text behind `WHERE` the condition is always true. -/
  unrestricted : ∀ b, s.whereText b = none → ∀ truth, s.isMet truth = true
  reads : (∀ f ∈ s.effectiveFilter, ∀ name ∈ f.names, IsName name) →
    ∀ b text, s.whereText b = some text → ∃ e, Condition.read? text = some e ∧
      e.comparisons = (Comparison.bodies s.comparisons b).map lexemes ∧
      ∀ truth, e.holds truth 0 = s.isMet truth

/-- An accepted selection of a class keeps to the active records by its own history flag. The
deletion test is its last comparison, its truth is that of the filters together with the test, and
the text behind `WHERE` stands in its place and reads back as that truth. -/
theorem keepsToActive_of_named {r : Request} {s : Selection} {className : String}
    (htarget : r.target = .named className) (h : ofRequest schema limits r = .ok s) :
    ∃ model, schema.model? className = some model ∧ KeepsToActive schema limits r model s := by
  obtain ⟨-, model, hmodel, filter, hfilter, traversal, htraversal, rfl⟩ :=
    (ofRequest_named_eq_ok htarget).1 h
  obtain ⟨hcomparisons, hholds⟩ := Request.keepFilter_of_lower hfilter
  -- what is kept of the filters is never empty, so a text behind `WHERE` is missing only when
  -- nothing is tested
  have hkept : ∀ f ∈ Request.keepFilter filter, f.isEmpty = false :=
    fun f hf => (Request.keepFilter_eq_some.1 hf).2
  refine ⟨model, hmodel, ?_⟩
  constructor
  · rfl
  · exact htraversal
  · exact ⟨_, hcomparisons, comparisons_eq _⟩
  · intro truth
    rw [isMet_eq truth hkept, hholds, ← hcomparisons.length_eq]
    rfl
  · exact render_eq_whereText rfl
  · exact places_render rfl
  · exact fun b hnone truth => isMet_of_whereText_eq_none hkept hnone truth
  · exact fun hnames b text htext => read_whereText hnames htext

/-- At every level of an accepted request, the condition of a selection of a class says what the
request at that level asks for, and that records are active unless that request itself asks for the
history. -/
theorem keepsToActive_of_ofRequest {r : Request} {s : Selection}
    (h : ofRequest schema limits r = .ok s) :
    List.Forall₂ (fun r s => ∀ className, r.target = .named className →
      ∃ model, schema.model? className = some model ∧ KeepsToActive schema limits r model s)
      r.levels s.levels := by
  refine (levels_of_ofRequest h).imp fun r s hs className htarget => ?_
  exact keepsToActive_of_named htarget hs

/-- People of a name in all history, or without a friend near whom there is somebody young or
without a nickname, now. -/
def pastRequest : Request :=
  { Request.ofClass "Person" with
    filters := some (.any [
      .leaf ⟨"name", none, .literal (.string "Ann"), false⟩,
      .all [.any []],
      .leaf ⟨"friends", none, .request {
        Request.ofClass "Person" with
        filters := some (.any [
          .leaf ⟨"age", some .less, .literal (.int 30), false⟩,
          .leaf ⟨"nickname", none, .literal .null, false⟩])
        edges := some ["Knows"]
        depth := some 2 }, true⟩])
    history := true }

/-- The outer selection says nothing about deletion, the nested one does, and its condition stands in
the root of its pattern. -/
theorem keepsToActive_of_pastRequest :
    ∃ outer inner, ofRequest peopleSchema {} pastRequest = .ok outer ∧
      outer.levels = [outer, inner] ∧
      (∀ truth, outer.isMet truth = (truth 0 || !truth 1)) ∧
      (∃ text e, inner.whereText {} = some text ∧ Condition.read? text = some e ∧
        ∀ truth, e.holds truth 0 = ((truth 0 || truth 1) && truth 2)) ∧
      (inner.render {}).1 = "SELECT * FROM (MATCH \x7bclass: Person, WHERE: " ++
        "((age < :param0 OR nickname IS NULL) AND deletedAt IS NULL)\x7d.both('Knows')" ++
        "\x7bWHILE: ($depth < 2)\x7d RETURN DISTINCT $pathElements)" := by
  -- the two levels of the request, each with its own history flag
  have hlevels := @keepsToActive_of_ofRequest peopleSchema {} pastRequest _ rfl
  obtain ⟨houter, hrest⟩ := List.forall₂_cons.1 hlevels
  obtain ⟨hinner, -⟩ := List.forall₂_cons.1 hrest
  obtain ⟨_, -, hpast⟩ := houter "Person" rfl
  obtain ⟨_, -, hpresent⟩ := hinner "Person" rfl
  obtain ⟨e, hread, -, hholds⟩ := hpresent.reads (fun f hf => by cases hf; decide) {} _ rfl
  refine ⟨_, _, rfl, rfl, fun truth => (hpast.holds truth).trans ?_, ⟨_, e, rfl, hread,
    fun truth => ((hholds truth).trans (hpresent.holds truth)).trans ?_⟩, ?_⟩
  · simp [Request.isMet, Criterion.holds, Criterion.holdAny, Criterion.comparisons,
      Criterion.comparisonsEach]
  · simp [Request.isMet, Request.comparisons, Criterion.holds, Criterion.holdAny,
      Criterion.comparisons, Criterion.comparisonsEach, Request.ofClass, Request.ofTarget]
  · decide +kernel

end Selection

end RecordQuery
