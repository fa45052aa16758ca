import RecordQuery.Limits.Source
import RecordQuery.Proofs.Rejections

/-!
# Requests keep to the limits

Limits are validated wherever they come from. A request that is accepted under such limits asks for
no more rows and no deeper expansion than they allow, and no traversal at any level goes deeper,
also where the depth is left out: the depth of a neighborhood that does not give one is itself a
limit, and validation relates it to the others. For the same reason a neighborhood without a depth
is not turned down for its depth.

* `Limits.isConfigured_iff` — configured limits are the valid ones.
* `Request.Traverses.keepsTo` — the traversal that a request stands for keeps to valid limits.
* `Query.keepsTo_of_ofRequest` — so does everything in an accepted request.
-/

namespace RecordQuery

-- ---------------------------------------------------------------------------
-- Limits
-- ---------------------------------------------------------------------------

namespace Limits

/-- Rows, words and neighborhoods have at least size one, and the depth that stands in for one that
is left out is within the greatest depth. -/
structure IsValid (limits : Limits) : Prop where
  rows : 0 < limits.maxLimit
  words : 0 < limits.minWordSize
  depth : 0 < limits.relatedNodeDepth
  depths : limits.relatedNodeDepth ≤ limits.maxDepth

/-- Limits that variables have overridden, from whatever base, or that a text describes. -/
def IsConfigured (limits : Limits) : Prop :=
  (∃ (base : Limits) (environment : List (String × String)),
    base.withOverrides environment = .ok limits) ∨ ∃ text, ofText text = .ok limits

/-- Validation lets through what is valid, and changes nothing. The checks are made in a fixed
order, and each one fails for a bound of its own. -/
theorem validate_eq_ok {limits valid : Limits} :
    limits.validate = .ok valid ↔ limits.IsValid ∧ limits = valid := by
  have hfault : ∀ fault, ¬ limits.IsValid →
      (.error (LimitsError.invalid fault) = Except.ok valid ↔ limits.IsValid ∧ limits = valid) := by
    intro fault hinvalid
    simp [hinvalid]
  unfold validate
  split
  -- each check that fails contradicts the one bound that it is about
  · next hrows => exact hfault _ fun hvalid => UInt64.pos_iff_ne_zero.1 hvalid.rows hrows
  · next hrows =>
    split
    · next hwords => exact hfault _ fun hvalid => UInt64.pos_iff_ne_zero.1 hvalid.words hwords
    · next hwords =>
      split
      · next hdepth => exact hfault _ fun hvalid => UInt32.pos_iff_ne_zero.1 hvalid.depth hdepth
      · next hdepth =>
        split
        · next hcross => exact hfault _ fun hvalid => UInt32.not_lt.2 hvalid.depths hcross
        · next hcross =>
          have hvalid : limits.IsValid :=
            ⟨UInt64.pos_iff_ne_zero.2 hrows, UInt64.pos_iff_ne_zero.2 hwords,
              UInt32.pos_iff_ne_zero.2 hdepth, UInt32.not_lt.1 hcross⟩
          simp [hvalid]

/-- Configured limits are the valid ones: overrides and texts are validated at the end, and limits
that are valid are what they become without any override. -/
theorem isConfigured_iff {limits : Limits} : limits.IsConfigured ↔ limits.IsValid := by
  constructor
  · rintro (⟨base, environment, h⟩ | ⟨text, h⟩)
    · rw [withOverrides] at h
      cases hchanged : base.override environment with
      | error e =>
        rw [hchanged] at h
        cases h
      | ok changed =>
        rw [hchanged] at h
        obtain ⟨hvalid, rfl⟩ := validate_eq_ok.1 h
        exact hvalid
    -- a text is validated in the same way, and anything valid is reached without overrides
    · rw [ofText] at h
      split at h
      · cases h
      · obtain ⟨hvalid, rfl⟩ := validate_eq_ok.1 h
        exact hvalid
  · intro hvalid
    exact .inl ⟨limits, [], validate_eq_ok.2 ⟨hvalid, rfl⟩⟩

/-- The limits at the start of the program are configured, whether or not there is a file and
whatever variables are set. -/
theorem isConfigured_of_load {file : Option (String × FileText)}
    {environment : List (String × String)} {limits : Limits}
    (h : load file environment = .ok limits) : limits.IsConfigured := by
  -- whatever the file gives, it is the variables that are applied last
  have hbase : ∃ base : Limits, base.withOverrides environment = .ok limits := by
    unfold load at h
    rcases file with _ | ⟨path, reason | text⟩
    · exact ⟨{}, h⟩
    · cases h
    · cases hread : read? text with
      | none =>
        simp only [hread] at h
        cases h
      | some base =>
        simp only [hread] at h
        exact ⟨base, h⟩
  obtain ⟨base, h⟩ := hbase
  exact .inl ⟨base, environment, h⟩

end Limits

-- ---------------------------------------------------------------------------
-- Traversals
-- ---------------------------------------------------------------------------

/-- A neighborhood of at least one step, or a walk along edges in one direction, within the greatest
depth. -/
inductive Traversal.KeepsTo (limits : Limits) : Traversal → Prop where
  | neighborhood {edges direction depth} (hleast : 0 < depth) (hmost : depth ≤ limits.maxDepth) :
      KeepsTo limits (.neighborhood edges direction depth)
  | walk {edges direction depth} (hedges : edges ≠ [])
      (hdirection : direction = .incoming ∨ direction = .outgoing)
      (hmost : depth ≤ limits.maxDepth) : KeepsTo limits (.walk edges direction depth)

namespace Request

variable {schema : Schema} {limits : Limits}

/-- The depth in the place of one that is left out is within the limits if that which stands in for
it is. -/
theorem getD_depth_le {r : Request} {depth : UInt32} (hdepth : ∀ d ∈ r.depth, d ≤ limits.maxDepth)
    (h : depth ≤ limits.maxDepth) : r.depth.getD depth ≤ limits.maxDepth := by
  cases hgiven : r.depth with
  | none => exact h
  | some d => exact hdepth d hgiven

/-- An accepted traversal keeps to the limits: its depth was compared with the greatest one, or is
the default, which is no greater. -/
theorem Traverses.keepsTo {r : Request} {t : Traversal} (hlimits : limits.IsValid)
    (hdepth : ∀ d ∈ r.depth, d ≤ limits.maxDepth) (h : r.Traverses limits t) :
    t.KeepsTo limits := by
  cases h with
  | neighborhood _ hpositive =>
    exact .neighborhood (UInt32.pos_iff_ne_zero.2 hpositive) (getD_depth_le hdepth hlimits.depths)
  | descendants _ _ hedges =>
    exact .walk hedges (.inr rfl) (getD_depth_le hdepth (UInt32.le_refl _))
  | ancestors _ _ hedges =>
    exact .walk hedges (.inl rfl) (getD_depth_le hdepth (UInt32.le_refl _))

/-- A neighborhood that leaves the depth out is accepted as soon as its edges are, with the depth
that the limits give it. -/
theorem traversal_of_depth_eq_none {r : Request} (hlimits : limits.IsValid)
    (hstyle : r.traversalStyle? = some .neighborhood) (hdepth : r.depth = none) :
    r.traversal schema limits =
      (checkEdges schema (r.edges.getD [])).map fun _ =>
        some (.neighborhood (r.edges.getD []) (r.direction.getD .both) limits.relatedNodeDepth) := by
  have hne : limits.relatedNodeDepth ≠ 0 := UInt32.pos_iff_ne_zero.1 hlimits.depth
  rw [traversal, hstyle]
  dsimp only
  rw [hdepth, checkDepth, neighborhood, hdepth, Option.getD_none, if_neg hne]
  cases checkEdges schema (r.edges.getD []) <;> rfl

end Request

-- ---------------------------------------------------------------------------
-- Accepted requests
-- ---------------------------------------------------------------------------

variable {schema : Schema} {limits : Limits}

/-- At every level of an accepted request the traversal keeps to the limits. -/
theorem Selection.keepsTo_of_accepted {r : Request} {s : Selection} (hlimits : limits.IsValid)
    (h : Selection.ofRequest schema limits r = .ok s) :
    ∀ level ∈ s.levels, ∀ t ∈ level.traversal, t.KeepsTo limits := by
  intro level hlevel t ht
  obtain ⟨request, -, hrequest⟩ := exists_of_forall₂_of_mem (levels_of_ofRequest h) hlevel
  have htraversal := traversal_of_ofRequest hrequest ht
  obtain ⟨-, hdepth, htraverses⟩ := Request.traversal_eq_some.1 htraversal
  exact htraverses.keepsTo hlimits hdepth

namespace Query

/-- What an accepted request asks for is within the limits. -/
structure KeepsTo (limits : Limits) (r : Request) (q : Query) : Prop where
  limit : q.options.limit = r.limit ∧ ∀ rows ∈ r.limit, rows ≤ limits.maxLimit
  neighbors : ∀ depth ∈ r.neighbors, depth ≤ limits.maxNeighbors
  traversals : ∀ s ∈ q.selection.levels, ∀ t ∈ s.traversal, t.KeepsTo limits

/-- Under configured limits a request that is accepted keeps to them at every level. One that is
turned down for a depth has a level that gives this depth; and where a neighborhood gives none, its
traversal is checked for nothing but its edges. -/
theorem keepsTo_of_ofRequest (hlimits : limits.IsConfigured) (r : Request) :
    (∀ q, ofRequest schema limits r = .ok q → q.KeepsTo limits r) ∧
      (∀ cause, ofRequest schema limits r = .error (.attribute cause) →
        cause.isAboutDepth = true → ∃ level ∈ r.levels, level.DepthFault limits cause) ∧
      (r.traversalStyle? = some .neighborhood → r.depth = none →
        r.traversal schema limits =
          (Request.checkEdges schema (r.edges.getD [])).map fun _ =>
            some (.neighborhood (r.edges.getD []) (r.direction.getD .both)
              limits.relatedNodeDepth)) := by
  have hvalid := Limits.isConfigured_iff.1 hlimits
  refine ⟨fun q hq => ?_, fun cause hcause habout => ?_, fun hstyle hdepth => ?_⟩
  -- the outer options are checked against the limits here, the levels where they are lowered
  · obtain ⟨hoptions, selection, hselection, -, -, -, -, projection, -, rfl⟩ :=
      ofRequest_eq_ok.1 hq
    obtain ⟨-, hneighbors, hlimit⟩ := checkLimits_eq_ok.1 hoptions
    exact ⟨⟨rfl, hlimit⟩, hneighbors, Selection.keepsTo_of_accepted hvalid hselection⟩
  -- no default depth is zero, so a level is to blame only for a depth that it gives
  · have hne : limits.relatedNodeDepth ≠ 0 := UInt32.pos_iff_ne_zero.1 hvalid.depth
    obtain ⟨found, hfound, hblame⟩ := failsFor_ofRequest hne r _ hcause
    obtain rfl : cause = found := QueryError.attribute.inj hfound
    exact hblame habout
  · exact Request.traversal_of_depth_eq_none hvalid hstyle hdepth

/-- Variables of an environment; the greatest depth is given twice. -/
def depthVariables : List (String × String) :=
  [("GKB_QUERY_MAX_DEPTH", "40"), ("HOME", "/root"), ("GKB_QUERY_RELATED_NODE_DEPTH", " 5 "),
    ("GKB_QUERY_MAX_LIMIT", "20"), ("GKB_QUERY_MAX_DEPTH", "+7")]

/-- Twenty of those around the people who are befriended with somebody above an Ann, who is looked
for up to a depth. -/
def kinRequest (depth : UInt32) : Request :=
  { Request.ofClass "Person" with
    filters := some (.leaf ⟨"friends", none, .request {
      Request.ofClass "Person" with
      filters := some (.leaf ⟨"name", none, .literal (.string "Ann"), false⟩)
      style := some .ancestors
      edges := some ["Knows"]
      depth := some depth }, false⟩)
    direction := some .both
    neighbors := some 2
    limit := some 20 }

/-- Limits that are read from variables, a nested request at the greatest depth, one that goes
beyond it, and one that leaves its depth out. -/
theorem keepsTo_of_kinRequest :
    ∃ limits, Limits.withOverrides {} depthVariables = .ok limits ∧ limits.maxDepth = 7 ∧
      (∃ q, ofRequest peopleSchema limits (kinRequest 7) = .ok q ∧
        q.selection.levels.length = 2 ∧ q.KeepsTo limits (kinRequest 7)) ∧
      (∃ cause, ofRequest peopleSchema limits (kinRequest 8) = .error (.attribute cause) ∧
        cause.isAboutDepth = true ∧ ∃ level ∈ (kinRequest 8).levels,
          level.DepthFault limits cause) ∧
      (kinRequest 8).traversalStyle? = some .neighborhood ∧ (kinRequest 8).depth = none ∧
      (kinRequest 8).traversal peopleSchema limits =
        .ok (some (.neighborhood [] .both limits.relatedNodeDepth)) := by
  have hoverrides : Limits.withOverrides {} depthVariables =
      .ok { maxLimit := 20, maxDepth := 7, relatedNodeDepth := 5 } := by decide
  have hlimits : Limits.IsConfigured { maxLimit := 20, maxDepth := 7, relatedNodeDepth := 5 } :=
    .inl ⟨_, _, hoverrides⟩
  obtain ⟨hkeeps, -, -⟩ := @keepsTo_of_ofRequest peopleSchema _ hlimits (kinRequest 7)
  obtain ⟨-, hblame, htraversal⟩ := @keepsTo_of_ofRequest peopleSchema _ hlimits (kinRequest 8)
  refine ⟨_, hoverrides, rfl, ⟨_, rfl, rfl, hkeeps _ rfl⟩, ⟨_, rfl, rfl, hblame _ rfl rfl⟩, rfl, rfl,
    htraversal rfl rfl⟩

end Query

end RecordQuery
