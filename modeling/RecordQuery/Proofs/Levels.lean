import RecordQuery.Proofs.Lowering

/-!
# Requests at every level

A request may have requests nested in its criteria, these again, and so on; and the selection that
it becomes has selections nested in it. `Request.levels` and `Selection.levels` list them at any
depth, each before those inside it.

* `levels_of_checks` — what is nested in accepted criteria or in an accepted request was accepted by
  the same rules.
* `Selection.levels_of_ofRequest` — every request at any level was accepted by the same rules, as
  the selection at the same place.
-/

namespace RecordQuery

mutual

/-- The selections at every level inside a filter. -/
def Filter.levels : Filter → List Selection
  | .leaf comparison => Comparison.levels comparison
  | .all children => Filter.levelsEach children
  | .any children => Filter.levelsEach children
  termination_by structural f => f

/-- The selections at every level inside filters. -/
def Filter.levelsEach : List Filter → List Selection
  | [] => []
  | child :: rest => Filter.levels child ++ Filter.levelsEach rest
  termination_by structural fs => fs

/-- The selections at every level inside a comparison. -/
def Comparison.levels : Comparison → List Selection
  | ⟨_, _, operand, _⟩ => Operand.levels operand
  termination_by structural c => c

/-- The selections at every level of an operand. -/
def Operand.levels : Operand → List Selection
  | .literal _ => []
  | .selection selection => Selection.levels selection
  termination_by structural o => o

/-- A selection and those nested in it. -/
def Selection.levels : Selection → List Selection
  | ⟨target, none, history, traversal⟩ => [⟨target, none, history, traversal⟩]
  | ⟨target, some filter, history, traversal⟩ =>
    ⟨target, some filter, history, traversal⟩ :: Filter.levels filter
  termination_by structural s => s

end

mutual

/-- The requests at every level inside a criterion. -/
def Criterion.levels : Criterion → List Request
  | .leaf comparison => WantedComparison.levels comparison
  | .all children => Criterion.levelsEach children
  | .any children => Criterion.levelsEach children
  termination_by structural c => c

/-- The requests at every level inside criteria. -/
def Criterion.levelsEach : List Criterion → List Request
  | [] => []
  | child :: rest => Criterion.levels child ++ Criterion.levelsEach rest
  termination_by structural cs => cs

/-- The requests at every level inside a wanted comparison. -/
def WantedComparison.levels : WantedComparison → List Request
  | ⟨_, _, operand, _⟩ => WantedOperand.levels operand
  termination_by structural c => c

/-- The requests at every level of a wanted operand. -/
def WantedOperand.levels : WantedOperand → List Request
  | .literal _ => []
  | .request request => Request.levels request
  termination_by structural o => o

/-- The requests at every level inside the criteria of a request. -/
def Criterion.levelsOption : Option Criterion → List Request
  | none => []
  | some criterion => Criterion.levels criterion
  termination_by structural c => c

/-- A request and those nested in it. -/
def Request.levels : Request → List Request
  | ⟨target, filters, neighbors, style, edges, direction, depth, returnProperties, orderBy,
      orderByDirection, skip, limit, history, count⟩ =>
    ⟨target, filters, neighbors, style, edges, direction, depth, returnProperties, orderBy,
      orderByDirection, skip, limit, history, count⟩ :: Criterion.levelsOption filters
  termination_by structural r => r

end

theorem Selection.levels_eq (s : Selection) : s.levels = s :: s.filter.elim [] Filter.levels := by
  obtain ⟨target, filter, history, traversal⟩ := s
  cases filter <;> rw [levels] <;> rfl

/-- The first level is the request itself, and the others are those of its criteria. -/
theorem Request.levels_eq (r : Request) : r.levels = r :: r.filters.elim [] Criterion.levels := by
  obtain ⟨target, filters, neighbors, style, edges, direction, depth, returnProperties, orderBy,
    orderByDirection, skip, limit, history, count⟩ := r
  cases filters <;> rw [levels, Criterion.levelsOption] <;> rfl

/-- The requests inside a request do not depend on its outer options. -/
theorem Request.levels_inner (r : Request) : r.inner.levels = r.inner :: r.levels.tail := by
  rw [r.inner.levels_eq, r.levels_eq]
  rfl

/-- The levels inside several filters are those of one after the other. -/
theorem Filter.levelsEach_eq_flatMap (fs : List Filter) : levelsEach fs = fs.flatMap levels := by
  induction fs with
  | nil => rfl
  | cons f rest ih => rw [levelsEach, ih, List.flatMap_cons]

theorem Filter.collects_levels : Collects levels where
  all children := by rw [levels, levelsEach_eq_flatMap]
  any children := by rw [levels, levelsEach_eq_flatMap]

variable {schema : Schema} {limits : Limits}

/-- Members of junctions are checked level by level if each of them is. -/
theorem Criterion.levelsEach_of_lower {model : ClassModel} {cs : List Criterion} {fs : List Filter}
    (hchildren : ∀ c ∈ cs, ∀ model f, Criterion.lower schema limits model c = .ok f →
      List.Forall₂ (fun r s => Selection.ofRequest schema limits r = .ok s) c.levels f.levels)
    (hlowered : List.Forall₂ (fun c f => Criterion.lower schema limits model c = .ok f) cs fs) :
    List.Forall₂ (fun r s => Selection.ofRequest schema limits r = .ok s)
      (levelsEach cs) (Filter.levelsEach fs) := by
  induction hlowered with
  | nil => exact .nil
  | @cons c f cs fs hlower _ ih =>
    rw [levelsEach, Filter.levelsEach]
    exact List.rel_append (hchildren c (List.mem_cons_self ..) model f hlower)
      (ih fun c hc => hchildren c (List.mem_cons_of_mem _ hc))

/-- Checking goes level by level: what a criterion or a request has nested in it is accepted by the
same rules, as the selection at the same place. -/
theorem levels_of_checks :
    (∀ c model f, Criterion.lower schema limits model c = .ok f →
      List.Forall₂ (fun r s => Selection.ofRequest schema limits r = .ok s) c.levels f.levels) ∧
    ∀ r s, Selection.ofRequest schema limits r = .ok s →
      List.Forall₂ (fun r s => Selection.ofRequest schema limits r = .ok s) r.levels s.levels := by
  refine Request.induction ?_ ?_ ?_ ?_ ?_
  · intro property operator value negated model f h
    obtain ⟨type, -, -, rfl⟩ := Criterion.lower_literal_eq_ok.1 h
    exact .nil
  · intro property operator request negated ih model f h
    obtain ⟨s, type, hs, -, -, rfl⟩ := Criterion.lower_request_eq_ok.1 h
    exact ih s hs
  · intro cs ih model f h
    obtain ⟨fs, hfs, rfl⟩ := Criterion.lower_all_eq_ok.1 h
    exact Criterion.levelsEach_of_lower ih hfs
  · intro cs ih model f h
    obtain ⟨fs, hfs, rfl⟩ := Criterion.lower_any_eq_ok.1 h
    exact Criterion.levelsEach_of_lower ih hfs
  · intro r ih s h
    rw [r.levels_eq, s.levels_eq]
    refine .cons h ?_
    -- a selection of records has no filter, and one of a class keeps the levels of its criteria
    cases htarget : r.target with
    | records texts =>
      obtain ⟨-, hconditions, -, ids, -, rfl⟩ := (Selection.ofRequest_records_eq_ok htarget).1 h
      rw [Request.filters_eq_none_of_hasConditions hconditions]
      exact .nil
    | named className =>
      obtain ⟨-, model, -, filter, hfilter, traversal, -, rfl⟩ :=
        (Selection.ofRequest_named_eq_ok htarget).1 h
      generalize r.filters = wanted at hfilter ih
      cases hfilter with
      | none => exact .nil
      | @some c f hlower =>
        show List.Forall₂ _ c.levels ((Request.keepFilter (some f)).elim [] Filter.levels)
        rw [Filter.collects_levels.elim_keepFilter]
        exact ih c rfl model f hlower

/-- Each request at any level of an accepted one is accepted, as the selection at the same place. -/
theorem Selection.levels_of_ofRequest {r : Request} {s : Selection}
    (h : Selection.ofRequest schema limits r = .ok s) :
    List.Forall₂ (fun r s => Selection.ofRequest schema limits r = .ok s) r.levels s.levels :=
  levels_of_checks.2 r s h

end RecordQuery
