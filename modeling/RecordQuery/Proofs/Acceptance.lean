import RecordQuery.Proofs.Lowering

/-!
# Acceptance of requests that differ in their criteria

Checking gives a result or the reason why there is none. `outcome` forgets the result. The steps of
checking a request look at its criteria once and never at what those become, so two requests that
differ in their criteria only have one outcome if their criteria have.

* `outcome_bind_congr` — steps behind two results with one outcome.
* `Query.outcome_ofRequest_congr` — requests whose criteria have one outcome.
-/

namespace RecordQuery

-- ---------------------------------------------------------------------------
-- Outcomes
-- ---------------------------------------------------------------------------

/-- Whether something is accepted, or why it is not. -/
def outcome {α : Type} (x : Result α) : Result Unit := x.map fun _ => ()

theorem outcome_eq_error {α : Type} {x : Result α} {e : QueryError} :
    outcome x = .error e ↔ x = .error e := by
  cases x <;> simp [outcome, Except.map]

theorem outcome_eq_ok {α : Type} {x : Result α} : outcome x = .ok () ↔ ∃ a, x = .ok a := by
  cases x <;> simp [outcome, Except.map]

theorem outcome_map {α β : Type} (f : α → β) (x : Result α) : outcome (x.map f) = outcome x := by
  cases x <;> rfl

/-- What follows two results with one outcome has one outcome if it does not depend on them. -/
theorem outcome_bind_congr {α β : Type} {x y : Result α} {f : α → Result β}
    (hx : outcome x = outcome y) (hf : ∀ a b, outcome (f a) = outcome (f b)) :
    outcome (x >>= f) = outcome (y >>= f) := by
  cases x with
  | error e =>
    obtain rfl := outcome_eq_error.1 hx.symm
    rfl
  | ok a =>
    obtain ⟨b, rfl⟩ := outcome_eq_ok.1 hx.symm
    exact hf a b

-- ---------------------------------------------------------------------------
-- Criteria and requests
-- ---------------------------------------------------------------------------

variable {schema : Schema} {limits : Limits}

/-- Members are checked in turn, and the first one that fails decides. -/
theorem Criterion.outcome_lowerEach_cons (model : ClassModel) (c : Criterion)
    (rest : List Criterion) :
    outcome (lowerEach schema limits model (c :: rest)) =
      (outcome (lower schema limits model c) >>= fun _ =>
        outcome (lowerEach schema limits model rest)) := by
  rw [lowerEach]
  cases lower schema limits model c with
  | error e => rfl
  | ok f => exact outcome_map ..

/-- A request for records of a class is accepted if it carries no outer options and its class, its
criteria and its traversal are accepted, in this order. -/
theorem Selection.outcome_ofRequest_named {r : Request} {className : String}
    (htarget : r.target = .named className) :
    outcome (ofRequest schema limits r) =
      if r.hasOuterOptions then reject .outerOptionsInside
      else schema.require className >>= fun model =>
        outcome (Criterion.lowerOption schema limits model.name r.filters) >>= fun _ =>
          outcome (r.traversal schema limits) := by
  obtain ⟨target, filters, neighbors, style, edges, direction, depth, returnProperties, orderBy,
    orderByDirection, skip, limit, history, count⟩ := r
  cases htarget
  rw [ofRequest]
  dsimp only
  split
  · rfl
  · cases schema.require className with
    | error e => rfl
    | ok model =>
      dsimp only
      show _ = (outcome (Criterion.lowerOption schema limits model.name filters) >>= fun _ => _)
      cases Criterion.lowerOption schema limits model.name filters with
      -- what follows only wraps the filter, so it has no say in the outcome
      | error e => rfl
      | ok filter => exact outcome_map ..

section Criteria

variable {r : Request} {className : String} {c d : Criterion}

/-- Criteria with one outcome on every class have one outcome on the class that is looked up. -/
theorem Criterion.outcome_lowerOption_congr (name : String)
    (h : ∀ model, outcome (c.lower schema limits model) = outcome (d.lower schema limits model)) :
    outcome (lowerOption schema limits name (some c)) =
      outcome (lowerOption schema limits name (some d)) := by
  rw [lowerOption, lowerOption]
  cases schema.require name with
  | error e => rfl
  | ok model =>
    dsimp only
    rw [outcome_map, outcome_map, h]

/-- Whether a request is accepted depends on its criteria through their own acceptance. -/
theorem Selection.outcome_ofRequest_congr (htarget : r.target = .named className)
    (h : ∀ model, outcome (c.lower schema limits model) = outcome (d.lower schema limits model)) :
    outcome (ofRequest schema limits { r with filters := some c }) =
      outcome (ofRequest schema limits { r with filters := some d }) := by
  have hfirst := @outcome_ofRequest_named schema limits { r with filters := some c } _ htarget
  have hsecond := @outcome_ofRequest_named schema limits { r with filters := some d } _ htarget
  rw [hfirst, hsecond]
  simp only [fun model : ClassModel => Criterion.outcome_lowerOption_congr model.name h]
  rfl

/-- A query looks at its criteria where it checks its selection and nowhere else, so requests that
differ in criteria of one outcome have one outcome. -/
theorem Query.outcome_ofRequest_congr (htarget : r.target = .named className)
    (h : ∀ model, outcome (c.lower schema limits model) = outcome (d.lower schema limits model)) :
    outcome (ofRequest schema limits { r with filters := some c }) =
      outcome (ofRequest schema limits { r with filters := some d }) := by
  have hselection := Selection.outcome_ofRequest_congr (r := r.inner) htarget h
  rw [ofRequest, ofRequest]
  show outcome (checkLimits limits r >>= fun _ =>
      Selection.ofRequest schema limits { r.inner with filters := some c } >>= _) =
    outcome (checkLimits limits r >>= fun _ =>
      Selection.ofRequest schema limits { r.inner with filters := some d } >>= _)
  cases checkLimits limits r with
  | error e => rfl
  | ok _ =>
    -- what is checked behind the selection does not look at it
    refine outcome_bind_congr hselection fun s t => ?_
    cases readTarget schema r.target with
    | error e => rfl
    | ok target =>
      obtain ⟨text, model⟩ := target
      show outcome (checkOrder schema model (r.orderBy.getD []) >>= fun _ =>
          projection? schema model { r with filters := some c } >>= _) =
        outcome (checkOrder schema model (r.orderBy.getD []) >>= fun _ =>
          projection? schema model { r with filters := some c } >>= _)
      cases checkOrder schema model (r.orderBy.getD []) with
      | error e => rfl
      | ok _ => cases projection? schema model { r with filters := some c } <;> rfl

end Criteria

end RecordQuery
