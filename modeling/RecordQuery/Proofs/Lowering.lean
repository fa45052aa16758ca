import Mathlib.Data.List.Forall2
import RecordQuery.Proofs.Induction
import RecordQuery.Query

/-!
# Accepted requests, case by case

A request that is accepted became a selection by a run of checks. This module takes such a run apart
once, so that a statement about accepted requests never unfolds a check it does not speak about:

* `Criterion.lower_literal_eq_ok` and its neighbours say for each form of a criterion when it is
  accepted and as which filter, and `Request.traversal_eq_some` says it for a traversal;
  `Selection.ofRequest_records_eq_ok` and `Selection.ofRequest_named_eq_ok` say it for the two forms
  of a request, and `Query.ofRequest_eq_ok` for a request with outer options.
* `Selection.ofRequest_induction` — what holds of a criterion and its filter in every one of these
  cases, and of a request and its selection, holds of all that are accepted.
-/

namespace RecordQuery

/-- What is related to a list item by item has an item for each of its own. -/
theorem exists_of_forall₂_of_mem {α β : Type} {R : α → β → Prop} {as : List α} {bs : List β} {b : β}
    (h : List.Forall₂ R as bs) (hb : b ∈ bs) : ∃ a ∈ as, R a b := by
  induction h with
  | nil => cases hb
  | @cons a' b' rest others hab _ ih =>
    rcases List.mem_cons.1 hb with rfl | hb
    · exact ⟨a', List.mem_cons_self .., hab⟩
    · obtain ⟨a, ha, hab⟩ := ih hb
      exact ⟨a, List.mem_cons_of_mem _ ha, hab⟩

/-- A relation item by item follows from another if it does for the items of the first list. -/
theorem forall₂_imp_of_mem {α β : Type} {R S : α → β → Prop} {as : List α} {bs : List β}
    (hitems : ∀ a ∈ as, ∀ b, R a b → S a b) (h : List.Forall₂ R as bs) : List.Forall₂ S as bs := by
  refine ((List.forall₂_and_left as bs).2 ⟨hitems, h⟩).imp ?_
  exact fun a b ⟨ha, hab⟩ => ha b hab

variable {schema : Schema} {limits : Limits} {model : ClassModel}

-- ---------------------------------------------------------------------------
-- Comparisons
-- ---------------------------------------------------------------------------

/-- A comparison with a literal is made when its property can be compared and its value passes the
check. -/
theorem Comparison.ofLiteral_eq_ok {property : String} {operator : Operator} {value : Value}
    {negated : Bool} {c : Comparison} :
    Comparison.ofLiteral model limits property operator value negated = .ok c ↔
      ∃ type, model.comparedType property = .ok type ∧
        checkLiteral limits property type operator value = .ok () ∧
        c = ⟨property, operator, .literal value, negated⟩ := by
  simp only [Comparison.ofLiteral, bind_eq_ok, pure, Except.pure, Except.ok.injEq]
  constructor
  · rintro ⟨type, htype, _, hcheck, rfl⟩
    exact ⟨type, htype, hcheck, rfl⟩
  · rintro ⟨type, htype, hcheck, rfl⟩
    exact ⟨type, htype, (), hcheck, rfl⟩

/-- A comparison with a selection is made when its property can be compared and its operator takes a
selection for that type. -/
theorem Comparison.ofSelection_eq_ok {property : String} {operator : Operator}
    {selection : Selection} {negated : Bool} {c : Comparison} :
    Comparison.ofSelection model property operator selection negated = .ok c ↔
      ∃ type, model.comparedType property = .ok type ∧ operator.allowsSelection type = true ∧
        c = ⟨property, operator, .selection selection, negated⟩ := by
  simp only [Comparison.ofSelection, bind_eq_ok, pure, Except.pure]
  constructor
  · rintro ⟨type, htype, h⟩
    split at h
    · next hallowed =>
      rw [Except.ok.injEq] at h
      exact ⟨type, htype, hallowed, h.symm⟩
    · cases h
  · rintro ⟨type, htype, hallowed, rfl⟩
    exact ⟨type, htype, by rw [if_pos hallowed]⟩

-- ---------------------------------------------------------------------------
-- Criteria
-- ---------------------------------------------------------------------------

namespace Criterion

/-- A leaf with a literal is accepted as one comparison, with the default operator of the value
where none is asked for. -/
theorem lower_literal_eq_ok {property : String} {operator : Option Operator} {value : Value}
    {negated : Bool} {f : Filter} :
    lower schema limits model (.leaf ⟨property, operator, .literal value, negated⟩) = .ok f ↔
      ∃ type, model.comparedType property = .ok type ∧
        checkLiteral limits property type
          (operator.getD (model.defaultOperator property value)) value = .ok () ∧
        f = .leaf ⟨property, operator.getD (model.defaultOperator property value),
          .literal value, negated⟩ := by
  simp only [lower, WantedComparison.lower, WantedOperand.lower, map_eq_ok,
    Comparison.ofLiteral_eq_ok]
  constructor
  · rintro ⟨c, ⟨type, htype, hcheck, rfl⟩, rfl⟩
    exact ⟨type, htype, hcheck, rfl⟩
  · rintro ⟨type, htype, hcheck, rfl⟩
    exact ⟨_, ⟨type, htype, hcheck, rfl⟩, rfl⟩

/-- A leaf with a request is accepted when the request is, and when its operator, or else the
default one for the property, takes a selection. -/
theorem lower_request_eq_ok {property : String} {operator : Option Operator} {request : Request}
    {negated : Bool} {f : Filter} :
    lower schema limits model (.leaf ⟨property, operator, .request request, negated⟩) = .ok f ↔
      ∃ selection type, Selection.ofRequest schema limits request = .ok selection ∧
        model.comparedType property = .ok type ∧
        (operator.getD (model.defaultSelectionOperator property)).allowsSelection type = true ∧
        f = .leaf ⟨property, operator.getD (model.defaultSelectionOperator property),
          .selection selection, negated⟩ := by
  simp only [lower, WantedComparison.lower, WantedOperand.lower, map_eq_ok]
  -- the request is checked before the property that it is compared with
  cases hs : Selection.ofRequest schema limits request with
  | error e => simp
  | ok selection =>
    simp only [Comparison.ofSelection_eq_ok, Except.ok.injEq]
    constructor
    · rintro ⟨c, ⟨type, htype, hallowed, rfl⟩, rfl⟩
      exact ⟨selection, type, rfl, htype, hallowed, rfl⟩
    · rintro ⟨s, type, rfl, htype, hallowed, rfl⟩
      exact ⟨_, ⟨type, htype, hallowed, rfl⟩, rfl⟩

/-- Criteria are accepted one by one, in their order, and become filters in that order. -/
theorem lowerEach_eq_ok {cs : List Criterion} {fs : List Filter} :
    lowerEach schema limits model cs = .ok fs ↔
      List.Forall₂ (fun c f => lower schema limits model c = .ok f) cs fs := by
  induction cs generalizing fs with
  | nil => simp [lowerEach, eq_comm]
  | cons c rest ih =>
    rw [lowerEach, List.forall₂_cons_left_iff]
    -- the first criterion that fails stops the rest
    cases hc : lower schema limits model c with
    | error e => simp
    | ok f =>
      simp only [map_eq_ok, ih, Except.ok.injEq]
      constructor
      · rintro ⟨gs, hrest, rfl⟩
        exact ⟨f, gs, rfl, hrest, rfl⟩
      · rintro ⟨g, gs, rfl, hrest, rfl⟩
        exact ⟨gs, hrest, rfl⟩

/-- A conjunction is accepted when its members are. -/
theorem lower_all_eq_ok {cs : List Criterion} {f : Filter} :
    lower schema limits model (.all cs) = .ok f ↔
      ∃ fs, List.Forall₂ (fun c f => lower schema limits model c = .ok f) cs fs ∧ .all fs = f := by
  rw [lower, map_eq_ok]
  simp only [lowerEach_eq_ok]

/-- A disjunction is accepted when its members are. -/
theorem lower_any_eq_ok {cs : List Criterion} {f : Filter} :
    lower schema limits model (.any cs) = .ok f ↔
      ∃ fs, List.Forall₂ (fun c f => lower schema limits model c = .ok f) cs fs ∧ .any fs = f := by
  rw [lower, map_eq_ok]
  simp only [lowerEach_eq_ok]

/-- The class that the criteria are checked against is the one that was found. -/
theorem lowerOption_some {className : String} (hmodel : schema.model? className = some model)
    (c : Criterion) :
    lowerOption schema limits model.name (some c) = (lower schema limits model c).map some := by
  rw [lowerOption, Schema.require_name_of_model? hmodel]

/-- Criteria that are left out are accepted as no filter. -/
theorem lowerOption_eq_ok {className : String} (hmodel : schema.model? className = some model)
    {c : Option Criterion} {f : Option Filter} :
    lowerOption schema limits model.name c = .ok f ↔
      Option.Rel (fun c f => lower schema limits model c = .ok f) c f := by
  cases c with
  | none => cases f <;> simp [lowerOption]
  | some c => cases f <;> simp [lowerOption_some hmodel, map_eq_ok]

end Criterion

-- ---------------------------------------------------------------------------
-- Traversals
-- ---------------------------------------------------------------------------

namespace Request

/-- The edges of a request are classes of the schema. -/
theorem checkEdges_eq_ok {edges : List String} :
    checkEdges schema edges = .ok () ↔ ∀ edge ∈ edges, (schema.model? edge).isSome := by
  induction edges with
  | nil => simp [checkEdges]
  | cons edge rest ih =>
    rw [checkEdges, List.forall_mem_cons, ← ih]
    cases schema.model? edge <;> simp [reject]

/-- A depth that is left out is never beyond the limit. -/
theorem checkDepth_eq_ok {depth : Option UInt32} :
    checkDepth limits depth = .ok () ↔ ∀ d ∈ depth, d ≤ limits.maxDepth := by
  cases depth with
  | none => simp [checkDepth]
  | some d =>
    rw [checkDepth]
    split
    · next hlimit => simp [reject, UInt32.not_le.2 hlimit]
    · next hlimit => simpa using UInt32.not_lt.1 hlimit

/-- The traversal that a request stands for. -/
inductive Traverses (limits : Limits) (r : Request) : Traversal → Prop where
  | neighborhood (hstyle : r.traversalStyle? = some .neighborhood)
      (hdepth : r.depth.getD limits.relatedNodeDepth ≠ 0) :
      Traverses limits r (.neighborhood (r.edges.getD []) (r.direction.getD .both)
        (r.depth.getD limits.relatedNodeDepth))
  | descendants (hstyle : r.traversalStyle? = some .descendants) (hdirection : r.direction = none)
      (hedges : r.edges.getD [] ≠ []) :
      Traverses limits r (.walk (r.edges.getD []) .outgoing (r.depth.getD limits.maxDepth))
  | ancestors (hstyle : r.traversalStyle? = some .ancestors) (hdirection : r.direction = none)
      (hedges : r.edges.getD [] ≠ []) :
      Traverses limits r (.walk (r.edges.getD []) .incoming (r.depth.getD limits.maxDepth))

/-- A neighbourhood of depth zero is turned down, whether the depth was asked for or configured. -/
theorem neighborhood_eq_ok {edges : List String} {r : Request} {t : Traversal} :
    neighborhood limits edges r = .ok t ↔ r.depth.getD limits.relatedNodeDepth ≠ 0 ∧
      .neighborhood edges (r.direction.getD .both) (r.depth.getD limits.relatedNodeDepth) = t := by
  unfold neighborhood
  dsimp only
  split
  · next hzero => simp [hzero, reject]
  · next hzero => simp [hzero]

/-- A walk has its own direction, so a request for one gives none, and it names an edge class at
least. -/
theorem walk_eq_ok {edges : List String} {direction : Direction} {r : Request} {t : Traversal} :
    walk limits edges direction r = .ok t ↔ r.direction = none ∧ edges ≠ [] ∧
      .walk edges direction (r.depth.getD limits.maxDepth) = t := by
  unfold walk
  cases r.direction with
  | some given => simp [reject]
  | none => cases edges <;> simp [reject]

/-- When the traversal of a request is accepted, and as which: its edges are known, a depth that it
asks for is within the limits, and its style makes it a walk or a neighborhood. -/
theorem traversal_eq_some {r : Request} {t : Traversal} :
    r.traversal schema limits = .ok (some t) ↔
      (∀ edge ∈ r.edges.getD [], (schema.model? edge).isSome) ∧
        (∀ d ∈ r.depth, d ≤ limits.maxDepth) ∧ r.Traverses limits t := by
  have hsome : ∀ {x : Result Traversal},
      (x >>= fun t => pure (some t)) = .ok (some t) → x = .ok t := by
    intro x h
    obtain ⟨u, hu, hut⟩ := bind_eq_ok.1 h
    obtain rfl := Option.some.inj (Except.ok.inj hut)
    exact hu
  rw [← checkEdges_eq_ok, ← checkDepth_eq_ok, traversal]
  constructor
  -- the edges and the depth are checked first, whatever the style is
  · intro h
    cases hstyle : r.traversalStyle? with
    | none =>
      rw [hstyle] at h
      cases h
    | some style =>
      rw [hstyle] at h
      obtain ⟨_, hedges, h⟩ := bind_eq_ok.1 h
      obtain ⟨_, hdepth, h⟩ := bind_eq_ok.1 h
      refine ⟨hedges, hdepth, ?_⟩
      cases style with
      | neighborhood =>
        obtain ⟨hpositive, rfl⟩ := neighborhood_eq_ok.1 (hsome h)
        exact .neighborhood hstyle hpositive
      | descendants =>
        obtain ⟨hdirection, hne, rfl⟩ := walk_eq_ok.1 (hsome h)
        exact .descendants hstyle hdirection hne
      | ancestors =>
        obtain ⟨hdirection, hne, rfl⟩ := walk_eq_ok.1 (hsome h)
        exact .ancestors hstyle hdirection hne
  · rintro ⟨hedges, hdepth, ht⟩
    cases ht with
    | neighborhood hstyle hpositive =>
      simp only [hstyle, bind_eq_ok, hedges, hdepth, exists_const, true_and]
      exact ⟨_, neighborhood_eq_ok.2 ⟨hpositive, rfl⟩, rfl⟩
    | descendants hstyle hdirection hne =>
      simp only [hstyle, bind_eq_ok, hedges, hdepth, exists_const, true_and]
      exact ⟨_, walk_eq_ok.2 ⟨hdirection, hne, rfl⟩, rfl⟩
    | ancestors hstyle hdirection hne =>
      simp only [hstyle, bind_eq_ok, hedges, hdepth, exists_const, true_and]
      exact ⟨_, walk_eq_ok.2 ⟨hdirection, hne, rfl⟩, rfl⟩

end Request

-- ---------------------------------------------------------------------------
-- Requests
-- ---------------------------------------------------------------------------

theorem Request.keepFilter_eq_some {filter : Option Filter} {f : Filter} :
    Request.keepFilter filter = some f ↔ filter = some f ∧ f.isEmpty = false := by
  rw [Request.keepFilter, Option.filter_eq_some_iff, Bool.not_eq_true']

/-- A request without conditions has no filters. -/
theorem Request.filters_eq_none_of_hasConditions {r : Request} (h : r.hasConditions = false) :
    r.filters = none := by
  simp only [Request.hasConditions, Bool.or_eq_false_iff, Option.isSome_eq_false_iff,
    Option.isNone_iff_eq_none] at h
  exact h.1.1.1.1

theorem Request.keepFilter_some (f : Filter) :
    Request.keepFilter (some f) = if f.isEmpty then none else some f := by
  cases h : f.isEmpty <;> simp [Request.keepFilter, h]

/-- In a filter that is not kept there is nothing. -/
theorem Filter.Collects.elim_keepFilter {α : Type} {F : Filter → List α} (hF : Collects F)
    (filter : Option Filter) : (Request.keepFilter filter).elim [] F = filter.elim [] F := by
  cases filter with
  | none => rfl
  | some f =>
    rw [Request.keepFilter_some]
    split
    · next hempty => exact (hF.eq_nil_of_isEmpty hempty).symm
    · rfl

namespace Selection

/-- When a request for explicit records is accepted, and as which selection: it has no criteria and
no traversal, and each of its texts is an id. -/
theorem ofRequest_records_eq_ok {r : Request} {texts : List String} {s : Selection}
    (htarget : r.target = .records texts) :
    ofRequest schema limits r = .ok s ↔
      r.hasOuterOptions = false ∧ r.hasConditions = false ∧ texts ≠ [] ∧
        ∃ ids, Request.readIds texts = .ok ids ∧ ofRecords ids r.history = s := by
  obtain ⟨target, filters, neighbors, style, edges, direction, depth, returnProperties, orderBy,
    orderByDirection, skip, limit, history, count⟩ := r
  cases htarget
  rw [ofRequest]
  -- the checks in their order: outer options, then conditions, then the ids
  dsimp only
  split
  · next houter => simp [houter, reject]
  · next houter =>
    rw [Bool.not_eq_true] at houter
    rw [Request.recordSelection]
    split
    · next hconditions => simp [hconditions, reject]
    · next hconditions =>
      rw [Bool.not_eq_true] at hconditions
      split
      · next hempty => simp [List.isEmpty_iff.1 hempty, reject]
      · next hempty =>
        have hne : texts ≠ [] := fun h => hempty (List.isEmpty_iff.2 h)
        simp only [houter, hconditions, hne, map_eq_ok, ne_eq, not_false_eq_true, true_and]

/-- When a request for records of a class is accepted, and as which selection. The class is known,
and criteria and traversal are accepted for it. -/
theorem ofRequest_named_eq_ok {r : Request} {className : String} {s : Selection}
    (htarget : r.target = .named className) :
    ofRequest schema limits r = .ok s ↔
      r.hasOuterOptions = false ∧ ∃ model, schema.model? className = some model ∧
        ∃ filter, Option.Rel (fun c f => Criterion.lower schema limits model c = .ok f)
            r.filters filter ∧
          ∃ traversal, r.traversal schema limits = .ok traversal ∧
            ⟨.named model.name, Request.keepFilter filter, r.history, traversal⟩ = s := by
  obtain ⟨target, filters, neighbors, style, edges, direction, depth, returnProperties, orderBy,
    orderByDirection, skip, limit, history, count⟩ := r
  cases htarget
  rw [ofRequest]
  -- the outer options are checked before the class is looked up, and the filter before the
  -- traversal
  dsimp only
  split
  · next houter => simp [houter, reject]
  · next houter =>
    rw [Bool.not_eq_true] at houter
    rw [Schema.require]
    cases hmodel : schema.model? className with
    | none => simp [orReject, reject]
    | some model =>
      simp only [orReject, Option.some.injEq, exists_eq_left', houter, true_and]
      simp only [← Criterion.lowerOption_eq_ok hmodel]
      cases hfilter : Criterion.lowerOption schema limits model.name filters with
      | error e => simp
      | ok filter => simp only [map_eq_ok, Except.ok.injEq, exists_eq_left']

/-- The traversal of a selection is the one that was accepted for the request. -/
theorem traversal_of_ofRequest {r : Request} {s : Selection} {t : Traversal}
    (h : ofRequest schema limits r = .ok s) (ht : s.traversal = some t) :
    r.traversal schema limits = .ok (some t) := by
  cases htarget : r.target with
  | records texts =>
    obtain ⟨-, -, -, ids, -, rfl⟩ := (ofRequest_records_eq_ok htarget).1 h
    cases ht
  | named className =>
    obtain ⟨-, model, -, filter, -, traversal, htraversal, rfl⟩ :=
      (ofRequest_named_eq_ok htarget).1 h
    obtain rfl : traversal = some t := ht
    exact htraversal

/-- Induction along accepted requests: `P` relates a criterion on the records of a class to its
filter, and `Q` a request to its selection. -/
theorem ofRequest_induction {P : ClassModel → Criterion → Filter → Prop}
    {Q : Request → Selection → Prop}
    (literal : ∀ model property operator value negated type,
      model.comparedType property = .ok type →
      checkLiteral limits property type
        (operator.getD (model.defaultOperator property value)) value = .ok () →
      P model (.leaf ⟨property, operator, .literal value, negated⟩)
        (.leaf ⟨property, operator.getD (model.defaultOperator property value),
          .literal value, negated⟩))
    (nested : ∀ model property operator request selection negated type, Q request selection →
      model.comparedType property = .ok type →
      (operator.getD (model.defaultSelectionOperator property)).allowsSelection type = true →
      P model (.leaf ⟨property, operator, .request request, negated⟩)
        (.leaf ⟨property, operator.getD (model.defaultSelectionOperator property),
          .selection selection, negated⟩))
    (all : ∀ model cs fs, List.Forall₂ (P model) cs fs → P model (.all cs) (.all fs))
    (any : ∀ model cs fs, List.Forall₂ (P model) cs fs → P model (.any cs) (.any fs))
    (records : ∀ (r : Request) texts ids, r.hasOuterOptions = false → r.target = .records texts →
      r.hasConditions = false → texts ≠ [] → Request.readIds texts = .ok ids →
      Q r (ofRecords ids r.history))
    (named : ∀ (r : Request) className model filter traversal, r.hasOuterOptions = false →
      r.target = .named className → schema.model? className = some model →
      Option.Rel (P model) r.filters filter → r.traversal schema limits = .ok traversal →
      Q r ⟨.named model.name, Request.keepFilter filter, r.history, traversal⟩) :
    (∀ model c f, Criterion.lower schema limits model c = .ok f → P model c f) ∧
      ∀ r s, ofRequest schema limits r = .ok s → Q r s := by
  have hjunction : ∀ {model} {cs : List Criterion} {fs : List Filter},
      (∀ c ∈ cs, ∀ model f, Criterion.lower schema limits model c = .ok f → P model c f) →
      List.Forall₂ (fun c f => Criterion.lower schema limits model c = .ok f) cs fs →
      List.Forall₂ (P model) cs fs := by
    intro model cs fs hchildren hlowered
    exact forall₂_imp_of_mem (fun c hc f => hchildren c hc model f) hlowered
  have hboth : (∀ c model f, Criterion.lower schema limits model c = .ok f → P model c f) ∧
      ∀ r s, ofRequest schema limits r = .ok s → Q r s := by
    -- one case for each way in which a criterion or a request is accepted
    refine Request.induction ?_ ?_ ?_ ?_ ?_
    · intro property operator value negated model f h
      obtain ⟨type, htype, hcheck, rfl⟩ := Criterion.lower_literal_eq_ok.1 h
      exact literal model property operator value negated type htype hcheck
    · intro property operator request negated ih model f h
      obtain ⟨s, type, hs, htype, hallowed, rfl⟩ := Criterion.lower_request_eq_ok.1 h
      exact nested model property operator request s negated type (ih s hs) htype hallowed
    · intro cs ih model f h
      obtain ⟨fs, hfs, rfl⟩ := Criterion.lower_all_eq_ok.1 h
      exact all model cs fs (hjunction ih hfs)
    · intro cs ih model f h
      obtain ⟨fs, hfs, rfl⟩ := Criterion.lower_any_eq_ok.1 h
      exact any model cs fs (hjunction ih hfs)
    · intro r ih s h
      cases htarget : r.target with
      | records texts =>
        obtain ⟨houter, hconditions, hne, ids, hids, rfl⟩ :=
          (ofRequest_records_eq_ok htarget).1 h
        exact records r texts ids houter htarget hconditions hne hids
      | named className =>
        obtain ⟨houter, model, hmodel, filter, hfilter, traversal, htraversal, rfl⟩ :=
          (ofRequest_named_eq_ok htarget).1 h
        refine named r className model filter traversal houter htarget hmodel ?_ htraversal
        cases hfilters : r.filters with
        | none =>
          rw [hfilters] at hfilter
          cases hfilter
          exact .none
        | some c =>
          rw [hfilters] at hfilter
          cases hfilter with
          | some hlower => exact .some (ih c hfilters model _ hlower)
  exact ⟨fun model c f => hboth.1 c model f, hboth.2⟩

end Selection

-- ---------------------------------------------------------------------------
-- Queries
-- ---------------------------------------------------------------------------

namespace Query

/-- What is checked beside the inner selection: neighbours and projections exclude each other, and
the numbers of both kinds are within their limits. -/
theorem checkLimits_eq_ok {r : Request} :
    checkLimits limits r = .ok () ↔ (r.neighbors = none ∨ r.returnProperties = none) ∧
      (∀ depth ∈ r.neighbors, depth ≤ limits.maxNeighbors) ∧
        ∀ rows ∈ r.limit, rows ≤ limits.maxLimit := by
  -- each of the checks looks for a number beyond its limit
  have hneighbors : r.neighbors.filter (limits.maxNeighbors < ·) = none ↔
      ∀ depth ∈ r.neighbors, depth ≤ limits.maxNeighbors := by
    simp only [Option.filter_eq_none_iff, decide_eq_true_eq, UInt32.not_lt, Option.mem_def]
  have hlimit : r.limit.filter (limits.maxLimit < ·) = none ↔
      ∀ rows ∈ r.limit, rows ≤ limits.maxLimit := by
    simp only [Option.filter_eq_none_iff, decide_eq_true_eq, UInt64.not_lt, Option.mem_def]
  have hboth : (r.neighbors.isSome && r.returnProperties.isSome) = false ↔
      r.neighbors = none ∨ r.returnProperties = none := by
    cases r.neighbors <;> simp
  rw [← hneighbors, ← hlimit, ← hboth, checkLimits]
  split
  · next htogether => simp [htogether, reject]
  · next htogether =>
    rw [Bool.not_eq_true] at htogether
    rw [and_iff_right htogether]
    split
    · next hfound => simp [hfound, reject]
    · next hfound => simp [hfound, reject]
    · next hnone hfound => simp [hnone, hfound]

/-- The class of a target is one of the schema. -/
theorem exists_of_readTarget {target : WantedTarget} {text : String} {model : ClassModel}
    (h : readTarget schema target = .ok (text, some model)) :
    ∃ className, target = .named className ∧ schema.model? className = some model := by
  cases target with
  | named className =>
    obtain ⟨found, hfound, heq⟩ := map_eq_ok.1 h
    cases heq
    exact ⟨className, rfl, orReject_eq_ok.1 hfound⟩
  | records ids => cases h

/-- When a request is accepted, and as which query: the limits are kept, the selection is accepted,
and the options are checked against its class. -/
theorem ofRequest_eq_ok {r : Request} {q : Query} :
    ofRequest schema limits r = .ok q ↔
      checkLimits limits r = .ok () ∧
        ∃ selection, Selection.ofRequest schema limits r.inner = .ok selection ∧
          ∃ target model, readTarget schema r.target = .ok (target, model) ∧
            checkOrder schema model (r.orderBy.getD []) = .ok () ∧
              ∃ projection, projection? schema model r = .ok projection ∧
                q = ⟨target, selection,
                  ⟨projection, r.orderBy.getD [], r.orderByDirection, r.skip, r.limit, r.count⟩,
                  r.history⟩ := by
  simp only [ofRequest, bind_eq_ok, pure, Except.pure, Except.ok.injEq]
  constructor
  · rintro ⟨_, hlimits, selection, hselection, ⟨target, model⟩, hmodel, _, horder, projection,
      hprojection, rfl⟩
    exact ⟨hlimits, selection, hselection, target, model, hmodel, horder, projection, hprojection,
      rfl⟩
  · rintro ⟨hlimits, selection, hselection, target, model, hmodel, horder, projection, hprojection,
      rfl⟩
    exact ⟨(), hlimits, selection, hselection, (target, model), hmodel, (), horder, projection,
      hprojection, rfl⟩

end Query

-- ---------------------------------------------------------------------------
-- A small schema
-- ---------------------------------------------------------------------------

/-- People and whom they know, for instances of what is proved of accepted requests. -/
def peopleSchema : Schema where
  classes := [
    ("Knows", { name := "Knows" }),
    ("Person", {
      name := "Person"
      properties := [
        ("age", { type := .integer }),
        ("friends", { type := .linkSet, linkedClass := some "Person" }),
        ("name", { type := .string }),
        ("nickname", { type := .string })] })]

end RecordQuery
