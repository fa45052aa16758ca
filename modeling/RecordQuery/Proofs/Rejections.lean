import RecordQuery.Proofs.Levels
import RecordQuery.Proofs.Wrapping

/-!
# What requests are turned down for

A request goes through many checks and is turned down by the first that fails. To say that it is
never turned down for a certain reason is a statement about all of them. Here the reason is a depth:
only the traversal of a request looks at depths, so whenever a depth is the reason, some level of the
request gives that depth itself.

* `FailsFor` — the causes that a check turns something down for, with a lemma for each way in which
  checks are put together.
* `Query.failsFor_of_traversal` — if a depth is the reason, then the traversal of some level is at
  fault. Whatever the reason, it is a rejection: `Query.isRejected_ofRequest`.
* `Request.DepthFault` — what is wrong with the depth that a request gives.
* `Query.failsFor_ofRequest` — if a depth is the reason, then some level of the request has that
  fault.
-/

namespace RecordQuery

-- ---------------------------------------------------------------------------
-- Causes
-- ---------------------------------------------------------------------------

/-- What a check turns down, it turns down for a cause with the property. -/
def FailsFor {α : Type} (P : Rejection → Prop) (x : Result α) : Prop :=
  ∀ e, x = .error e → ∃ cause, e = .attribute cause ∧ P cause

namespace FailsFor

variable {α β : Type} {P Q : Rejection → Prop} {x : Result α}

theorem ok (a : α) : FailsFor P (.ok a : Result α) := by
  intro e he
  cases he

theorem rejected {cause : Rejection} (h : P cause) : FailsFor P (reject cause : Result α) := by
  intro e he
  exact ⟨cause, (Except.error.inj he).symm, h⟩

/-- A missing value is turned down for the cause that is given for it. -/
theorem ofOption {cause : Rejection} (h : P cause) (o : Option α) :
    FailsFor P (orReject cause o) := by
  cases o with
  | none => exact rejected h
  | some a => exact ok a

/-- An error that is passed on has the cause that it had. -/
theorem passedOn {e : QueryError} (h : FailsFor P x) (he : x = .error e) :
    FailsFor P (.error e : Result β) := by
  intro e' he'
  obtain rfl := Except.error.inj he'
  exact h e he

/-- Changing what is returned changes no cause. -/
theorem map {f : α → β} (h : FailsFor P x) : FailsFor P (x.map f) := by
  cases x with
  | error e => exact h.passedOn rfl
  | ok a => exact ok (f a)

/-- Of two checks one after the other, the causes are those of the first and, once it has passed, of
the second. -/
theorem bind {f : α → Result β} (h : FailsFor P x) (hf : ∀ a, x = .ok a → FailsFor P (f a)) :
    FailsFor P (x >>= f) := by
  cases x with
  | error e => exact h.passedOn rfl
  | ok a => exact hf a rfl

/-- A cause with a property has every weaker one. -/
theorem mono (h : FailsFor P x) (hPQ : ∀ cause, P cause → Q cause) : FailsFor Q x := by
  intro e he
  obtain ⟨cause, hcause, hP⟩ := h e he
  exact ⟨cause, hcause, hPQ cause hP⟩

end FailsFor

-- ---------------------------------------------------------------------------
-- Depths
-- ---------------------------------------------------------------------------

/-- Whether a depth is the reason. -/
def Rejection.isAboutDepth : Rejection → Bool
  | .depthBeyondLimit _ _ | .noDepth => true
  | _ => false

/-- If a depth is the reason, then one of the requests is at fault. -/
def DepthBlame (F : Request → Rejection → Prop) (rs : List Request) (cause : Rejection) : Prop :=
  cause.isAboutDepth = true → ∃ r ∈ rs, F r cause

section Blame

variable {F : Request → Rejection → Prop} {rs others : List Request} {cause : Rejection}

/-- More requests only give more of them to blame. -/
theorem DepthBlame.mono (h : DepthBlame F rs cause) (hsubset : rs ⊆ others) :
    DepthBlame F others cause := by
  intro hdepth
  obtain ⟨r, hr, hfault⟩ := h hdepth
  exact ⟨r, hsubset hr, hfault⟩

/-- A cause that is no depth blames nobody. -/
theorem DepthBlame.of_not (h : cause.isAboutDepth = false) : DepthBlame F rs cause := by
  intro hdepth
  rw [h] at hdepth
  cases hdepth

/-- The outer options have nothing to do with what is wrong with a depth. -/
theorem DepthBlame.of_inner (hinner : ∀ r cause, F r.inner cause → F r cause) {r : Request}
    (h : DepthBlame F r.inner.levels cause) : DepthBlame F r.levels cause := by
  intro habout
  obtain ⟨level, hlevel, hfault⟩ := h habout
  rw [r.levels_inner] at hlevel
  rw [r.levels_eq]
  rcases List.mem_cons.1 hlevel with rfl | hlevel
  · exact ⟨r, List.mem_cons_self .., hinner r cause hfault⟩
  · rw [r.levels_eq] at hlevel
    exact ⟨level, List.mem_cons_of_mem _ hlevel, hfault⟩

end Blame

section Checks

variable {schema : Schema} {limits : Limits} {model : ClassModel} {P : Rejection → Prop}
  (hother : ∀ cause, cause.isAboutDepth = false → P cause)

include hother

-- ---------------------------------------------------------------------------
-- Comparisons
-- ---------------------------------------------------------------------------

/-- A property that cannot be compared is a cause that is no depth. -/
theorem failsFor_comparedType (property : String) : FailsFor P (model.comparedType property) := by
  unfold ClassModel.comparedType
  split
  · exact .ok _
  · exact (FailsFor.ofOption (hother _ rfl) _).map

/-- Words that are too short are a cause that is no depth. -/
theorem failsFor_checkWords (text : String) : FailsFor P (checkWords limits text) := by
  unfold checkWords
  split
  · exact .rejected (hother _ rfl)
  · split
    · exact .rejected (hother _ rfl)
    · exact .ok ()

/-- No check of a literal looks at a depth. -/
theorem failsFor_checkLiteral (property : String) (type : PropertyType) (operator : Operator)
    (value : Value) : FailsFor P (checkLiteral limits property type operator value) := by
  unfold checkLiteral
  split
  · split
    · exact failsFor_checkWords hother _
    · exact .ok ()
  · exact .rejected (hother _ rfl)

/-- No comparison with a literal is turned down for a depth. -/
theorem failsFor_ofLiteral (property : String) (operator : Operator) (value : Value)
    (negated : Bool) :
    FailsFor P (Comparison.ofLiteral model limits property operator value negated) := by
  unfold Comparison.ofLiteral
  refine (failsFor_comparedType hother property).bind fun type _ => ?_
  exact (failsFor_checkLiteral hother property type operator value).bind fun _ _ => .ok _

/-- No comparison with a selection is turned down for a depth of its own. -/
theorem failsFor_ofSelection (property : String) (operator : Operator) (s : Selection)
    (negated : Bool) : FailsFor P (Comparison.ofSelection model property operator s negated) := by
  unfold Comparison.ofSelection
  refine (failsFor_comparedType hother property).bind fun type _ => ?_
  split
  · exact .ok _
  · exact .rejected (hother _ rfl)

-- ---------------------------------------------------------------------------
-- Names
-- ---------------------------------------------------------------------------

theorem failsFor_require (className : String) : FailsFor P (schema.require className) :=
  .ofOption (hother _ rfl) _

/-- An edge class that is missing is a cause that is no depth. -/
theorem failsFor_checkEdges (edges : List String) :
    FailsFor P (Request.checkEdges schema edges) := by
  induction edges with
  | nil => exact .ok ()
  | cons edge rest ih =>
    unfold Request.checkEdges
    split
    · exact .rejected (hother _ rfl)
    · exact ih

/-- A text that is no id is a cause that is no depth. -/
theorem failsFor_readIds (texts : List String) : FailsFor P (Request.readIds texts) := by
  induction texts with
  | nil => exact .ok []
  | cons text rest ih =>
    unfold Request.readIds
    split
    · exact .rejected (hother _ rfl)
    · exact ih.map

/-- Records are turned down without a look at a depth limit. -/
theorem failsFor_recordSelection (r : Request) (texts : List String) :
    FailsFor P (r.recordSelection texts) := by
  unfold Request.recordSelection
  split
  · exact .rejected (hother _ rfl)
  · split
    · exact .rejected (hother _ rfl)
    · exact (failsFor_readIds hother texts).map

/-- A path is turned down without a look at a depth. -/
theorem failsFor_checkPath (text : String) (path : List String) :
    FailsFor P (Projection.checkPath schema text model path) := by
  fun_induction Projection.checkPath schema text model path with
  | case1 => exact .ok ()
  | case2 => exact .ok ()
  | case3 => exact (FailsFor.ofOption (hother _ rfl) _).map
  | case4 model part rest hrest e he =>
    exact (FailsFor.ofOption (hother (.unknownProperty part model.name) rfl) _).passedOn he
  | case5 => exact .rejected (hother _ rfl)
  | case6 model part rest hrest def_ hdef className hclass e he =>
    exact (failsFor_require hother className).passedOn he
  | case7 _ _ _ _ _ _ _ _ _ _ ih => exact ih

/-- Paths are turned down for what one of them is turned down for. -/
theorem failsFor_checkPaths (paths : List String) :
    FailsFor P (Projection.checkPaths schema model paths) := by
  induction paths with
  | nil => exact .ok ()
  | cons path rest ih =>
    unfold Projection.checkPaths
    split
    · next e he => exact (failsFor_checkPath hother path _).passedOn he
    · exact ih

/-- A projection is turned down for its paths or its names. -/
theorem failsFor_project (model : Option ClassModel) (names : List String) :
    FailsFor P (Query.project schema model names) := by
  unfold Query.project
  split
  · unfold Projection.ofPaths
    split
    · exact .rejected (hother _ rfl)
    · exact (failsFor_checkPaths hother names).map
  · unfold Projection.ofNames
    split
    · exact .rejected (hother _ rfl)
    · split
      · exact .rejected (hother _ rfl)
      · exact .ok _

-- ---------------------------------------------------------------------------
-- Outer options
-- ---------------------------------------------------------------------------

/-- The limits on rows and neighbours are not about the depth of a traversal. -/
theorem failsFor_checkLimits (r : Request) : FailsFor P (Query.checkLimits limits r) := by
  unfold Query.checkLimits
  split
  · exact .rejected (hother _ rfl)
  · split
    · exact .rejected (hother _ rfl)
    · exact .rejected (hother _ rfl)
    · exact .ok ()

/-- A target is turned down for a class that is missing. -/
theorem failsFor_readTarget (target : WantedTarget) :
    FailsFor P (Query.readTarget schema target) := by
  unfold Query.readTarget
  split
  · exact (failsFor_require hother _).map
  · exact .ok _

/-- An order is checked as a projection is, and turned down for the same causes. -/
theorem failsFor_checkOrder (model : Option ClassModel) (names : List String) :
    FailsFor P (Query.checkOrder schema model names) := by
  unfold Query.checkOrder
  split
  · exact .ok ()
  · exact (failsFor_project hother model names).map

/-- The projection of a request is turned down for what its properties are turned down for; an
expansion to neighbours is taken as it is. -/
theorem failsFor_projection? (model : Option ClassModel) (r : Request) :
    FailsFor P (Query.projection? schema model r) := by
  unfold Query.projection?
  split
  · exact (failsFor_project hother model _).map
  · exact .ok _
  · exact .ok none

end Checks

-- ---------------------------------------------------------------------------
-- Requests
-- ---------------------------------------------------------------------------

variable {schema : Schema} {limits : Limits}

/-- The traversal of a request is turned down for a depth that is given and beyond the limit, or
for one that comes to zero. -/
theorem Request.failsFor_traversal {P : Rejection → Prop}
    (hother : ∀ cause, cause.isAboutDepth = false → P cause) (r : Request)
    (hbeyond : ∀ depth, r.depth = some depth → limits.maxDepth < depth →
      P (.depthBeyondLimit depth limits.maxDepth))
    (hzero : r.traversalStyle? = some .neighborhood → r.depth.getD limits.relatedNodeDepth = 0 →
      P .noDepth) : FailsFor P (r.traversal schema limits) := by
  -- a walk takes any depth within the limit, so only a neighbourhood is turned down for having none
  have hwalk : ∀ edges direction, FailsFor P (walk limits edges direction r) := by
    intro edges direction
    unfold walk
    split
    · exact .rejected (hother _ rfl)
    · split
      · exact .rejected (hother _ rfl)
      · exact .ok _
  unfold traversal
  split
  · exact .ok none
  · next style hstyle =>
    refine (failsFor_checkEdges hother _).bind fun _ _ => ?_
    refine FailsFor.bind ?_ fun _ _ => ?_
    · unfold checkDepth
      split
      · exact .ok ()
      · next depth hgiven =>
        split
        · next hlimit => exact .rejected (hbeyond depth hgiven hlimit)
        · exact .ok ()
    · cases style with
      | neighborhood =>
        refine FailsFor.bind ?_ fun _ _ => .ok _
        unfold neighborhood
        dsimp only
        split
        · next hdepth => exact .rejected (hzero hstyle hdepth)
        · exact .ok _
      | descendants => exact (hwalk _ _).bind fun _ _ => .ok _
      | ancestors => exact (hwalk _ _).bind fun _ _ => .ok _

section Requests

variable {F : Request → Rejection → Prop}

/-- Members are turned down only for what one of them is turned down for. -/
theorem Criterion.failsFor_lowerEach {cs : List Criterion} {model : ClassModel}
    (hcs : ∀ c ∈ cs, FailsFor (DepthBlame F c.levels) (lower schema limits model c)) :
    FailsFor (DepthBlame F (levelsEach cs)) (lowerEach schema limits model cs) := by
  induction cs with
  | nil => exact .ok []
  | cons c rest ih =>
    have hc := hcs c (List.mem_cons_self ..)
    have hrest := ih fun c hc => hcs c (List.mem_cons_of_mem _ hc)
    unfold lowerEach
    rw [levelsEach]
    split
    · next e he =>
      exact (hc.passedOn he).mono fun _ hblame => hblame.mono (List.subset_append_left ..)
    · exact hrest.map.mono fun _ hblame => hblame.mono (List.subset_append_right ..)

/-- The criteria of a request are turned down for what they are turned down for on the records of
some class, or because there is no such class. -/
theorem Criterion.failsFor_lowerOption {c : Criterion}
    (hc : ∀ model, FailsFor (DepthBlame F c.levels) (lower schema limits model c))
    (className : String) :
    FailsFor (DepthBlame F c.levels) (lowerOption schema limits className (some c)) := by
  unfold lowerOption
  split
  · next e he => exact (failsFor_require (fun _ => DepthBlame.of_not) className).passedOn he
  · next model _ => exact (hc model).map

variable (htraversal : ∀ r : Request, FailsFor (DepthBlame F [r]) (r.traversal schema limits))

include htraversal

/-- Checking criteria or a request turns down for a depth only if the traversal of a level does. The
error is that of the first part that fails, and the levels of a part are levels of the whole. -/
theorem failsFor_of_checks :
    (∀ c model, FailsFor (DepthBlame F c.levels) (Criterion.lower schema limits model c)) ∧
      ∀ r, FailsFor (DepthBlame F r.levels) (Selection.ofRequest schema limits r) := by
  have hother : ∀ {rs : List Request} cause, cause.isAboutDepth = false → DepthBlame F rs cause :=
    fun _ => DepthBlame.of_not
  refine Request.induction ?_ ?_ ?_ ?_ ?_
  · intro property operator value negated model
    exact (failsFor_ofLiteral hother _ _ _ _).map
  -- a nested request is checked first, and its levels are those of the whole criterion
  · intro property operator request negated ih model
    refine FailsFor.map ?_
    unfold WantedComparison.lower WantedOperand.lower
    split
    · next e he => exact ih.passedOn he
    · exact failsFor_ofSelection hother _ _ _ _
  · intro cs ih model
    exact (Criterion.failsFor_lowerEach fun c hc => ih c hc model).map
  · intro cs ih model
    exact (Criterion.failsFor_lowerEach fun c hc => ih c hc model).map
  -- the criteria stand for the levels inside, the traversal for the level of the request itself
  · intro r ih
    rw [r.levels_eq]
    obtain ⟨target, filters, neighbors, style, edges, direction, depth, returnProperties, orderBy,
      orderByDirection, skip, limit, history, count⟩ := r
    cases target with
    | records texts =>
      rw [Selection.ofRequest]
      dsimp only
      split
      · exact .rejected (hother _ rfl)
      · exact failsFor_recordSelection hother _ texts
    | named className =>
      rw [Selection.ofRequest]
      dsimp only
      split
      · exact .rejected (hother _ rfl)
      · split
        · next e he => exact (failsFor_require hother className).passedOn he
        · next model _ =>
          split
          · next e he =>
            cases filters with
            | none => cases he
            | some c =>
              have hcriteria := Criterion.failsFor_lowerOption (ih c rfl) model.name
              refine FailsFor.mono (hcriteria.passedOn he) fun _ hblame => ?_
              exact hblame.mono (List.subset_cons_self ..)
          · refine (htraversal _).map.mono fun _ hblame => hblame.mono ?_
            simp

/-- A request is turned down for a depth only if the traversal of a level is. -/
theorem Query.failsFor_of_traversal (hinner : ∀ r cause, F r.inner cause → F r cause) (r : Request) :
    FailsFor (DepthBlame F r.levels) (ofRequest schema limits r) := by
  have hother : ∀ cause, cause.isAboutDepth = false → DepthBlame F r.levels cause :=
    fun _ => DepthBlame.of_not
  have hselection : FailsFor (DepthBlame F r.levels) (Selection.ofRequest schema limits r.inner) :=
    ((failsFor_of_checks htraversal).2 r.inner).mono fun _ => DepthBlame.of_inner hinner
  unfold ofRequest
  refine (failsFor_checkLimits hother r).bind fun _ _ => ?_
  refine hselection.bind fun s _ => ?_
  refine (failsFor_readTarget hother r.target).bind fun (_, model) _ => ?_
  refine (failsFor_checkOrder hother model _).bind fun _ _ => ?_
  exact (failsFor_projection? hother model r).bind fun _ _ => .ok _

end Requests

/-- A request that fails is rejected: checking it has no failures of another kind. -/
theorem Query.isRejected_ofRequest (r : Request) :
    FailsFor (fun _ => True) (ofRequest schema limits r) := by
  have htraversal : ∀ r : Request,
      FailsFor (DepthBlame (fun _ _ => True) [r]) (r.traversal schema limits) := fun r =>
    r.failsFor_traversal (fun _ => DepthBlame.of_not)
      (fun _ _ _ _ => ⟨r, List.mem_singleton_self r, trivial⟩)
      fun _ _ _ => ⟨r, List.mem_singleton_self r, trivial⟩
  exact (failsFor_of_traversal htraversal (fun _ _ _ => trivial) r).mono fun _ _ => trivial

-- ---------------------------------------------------------------------------
-- Depths that are given
-- ---------------------------------------------------------------------------

/-- What is wrong with the depth that a request gives: it is beyond the limit, or it is zero, and a
neighborhood has at least depth one. -/
inductive Request.DepthFault (limits : Limits) (r : Request) : Rejection → Prop where
  | beyond {depth} (hdepth : r.depth = some depth) (hlimit : limits.maxDepth < depth) :
      DepthFault limits r (.depthBeyondLimit depth limits.maxDepth)
  | zero (hdepth : r.depth = some 0) (hstyle : r.traversalStyle? = some .neighborhood) :
      DepthFault limits r .noDepth

/-- The outer options have nothing to do with the depth that a request gives. -/
theorem Request.depthFault_of_inner {r : Request} {cause : Rejection}
    (h : r.inner.DepthFault limits cause) : r.DepthFault limits cause := by
  cases h with
  | beyond hgiven hlimit => exact .beyond hgiven hlimit
  | zero hgiven hstyle => exact .zero hgiven hstyle

/-- The traversal of a request is turned down for a depth only if the request gives it. The depth
that stands in for one that is left out is not at fault. -/
theorem Request.depthFault_of_traversal (hdepth : limits.relatedNodeDepth ≠ 0) (r : Request) :
    FailsFor (DepthBlame (Request.DepthFault limits) [r]) (r.traversal schema limits) := by
  have hblame : ∀ {cause}, r.DepthFault limits cause → DepthBlame (DepthFault limits) [r] cause :=
    fun hfault _ => ⟨r, List.mem_singleton_self r, hfault⟩
  refine r.failsFor_traversal (fun _ => DepthBlame.of_not) ?_ ?_
  · exact fun depth hgiven hlimit => hblame (.beyond hgiven hlimit)
  · intro hstyle hzero
    cases hgiven : r.depth with
    | none =>
      -- the depth that stands in is not zero, so it cannot be what is checked here
      rw [hgiven] at hzero
      exact absurd hzero hdepth
    | some depth =>
      rw [hgiven] at hzero
      obtain rfl : depth = 0 := hzero
      exact hblame (.zero hgiven hstyle)

/-- A request is turned down for a depth only if one of its levels gives that depth. -/
theorem Query.failsFor_ofRequest (hdepth : limits.relatedNodeDepth ≠ 0) (r : Request) :
    FailsFor (DepthBlame (Request.DepthFault limits) r.levels) (ofRequest schema limits r) :=
  failsFor_of_traversal (Request.depthFault_of_traversal hdepth)
    (fun _ _ => Request.depthFault_of_inner) r

end RecordQuery
