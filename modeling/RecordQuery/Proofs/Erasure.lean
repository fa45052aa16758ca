import RecordQuery.Proofs.Wrapping

/-!
# The text of a statement does not depend on the contents of literals

*Erasure* takes the contents of every literal away and leaves its kind: a request is erased at all
of its levels, and so are filters, selections and drafts. Two requests with one erasure differ in
nothing but the contents of literals of the same kind.

Checking a request looks into literals, and may accept the one and turn down the other of two such
requests. What both of them become if they are accepted is compared here.

* `Selection.draft_erase` — drafts keep step with erasure.
* `Selection.erase_eq_of_ofRequest` — accepted requests with one erasure become selections with one
  erasure.
* `Query.text_eq_of_erase_eq` — they have one text, and bind the same names.
-/

namespace RecordQuery

-- ---------------------------------------------------------------------------
-- Values
-- ---------------------------------------------------------------------------

/-- A value of a kind that stands for all of them. -/
def Value.Kind.sample : Value.Kind → Value
  | .null => .null
  | .boolean => .bool false
  | .integer => .int 0
  | .float => .float (Binary64.ofInt 0)
  | .string => .string ""
  | .list => .list []
  | .map => .map []

namespace Value

/-- The value without its contents. -/
def erase (v : Value) : Value := v.kind.sample

theorem kind_erase (v : Value) : v.erase.kind = v.kind := by cases v <;> rfl

theorem kind_eq_of_erase_eq {v w : Value} (h : v.erase = w.erase) : v.kind = w.kind := by
  rw [← kind_erase v, h, kind_erase]

theorem isNull_erase (v : Value) : v.erase.isNull = v.isNull := by cases v <;> rfl

end Value

-- ---------------------------------------------------------------------------
-- Drafts
-- ---------------------------------------------------------------------------

/-- The piece without the contents of its literal. -/
def Fragment.erase : Fragment → Fragment
  | .text s => .text s
  | .literal value => .literal value.erase

namespace Draft

/-- The draft without the contents of its literals. -/
def erase (d : Draft) : Draft := d.map Fragment.erase

theorem erase_append (front back : Draft) :
    erase (front ++ back) = erase front ++ erase back := List.map_append

/-- The text of a draft does not depend on its literals. -/
theorem spell_erase (n : Nat) (d : Draft) : spell n (erase d) = spell n d := by
  induction d generalizing n with
  | nil => rfl
  | cons fragment rest ih =>
    rw [erase] at ih
    cases fragment <;> simp [erase, Fragment.erase, spell, ih]

/-- What is left of the literals of a draft. -/
theorem literals_erase (d : Draft) : literals (erase d) = (literals d).map Value.erase := by
  induction d with
  | nil => rfl
  | cons fragment rest ih =>
    rw [erase] at ih
    cases fragment <;> simp [erase, Fragment.erase, literals, ih]

theorem erase_negation (negated : Bool) (body : Draft) :
    erase (negation negated body) = negation negated (erase body) := by
  cases negated <;> simp [negation, erase, Fragment.erase]

/-- Separators are text and stay. -/
theorem erase_intercalate (separator : String) (drafts : List Draft) :
    erase ([Fragment.text separator].intercalate drafts) =
      [Fragment.text separator].intercalate (drafts.map erase) := by
  induction drafts with
  | nil => rfl
  | cons d rest ih =>
    cases rest with
    | nil => simp
    | cons e rest =>
      rw [List.intercalate_cons_cons, erase_append, erase_append, ih]
      simp only [List.map_cons, List.intercalate_cons_cons]
      rfl

/-- A junction keeps its form, which depends on the number of its members alone. -/
theorem erase_junction (joiner : String) (drafts : List Draft) :
    (junction joiner drafts).map erase = junction joiner (drafts.map erase) := by
  match drafts with
  | [] => rfl
  | [_] => rfl
  | first :: second :: rest =>
    have hinner := erase_intercalate (" " ++ joiner ++ " ") (first :: second :: rest)
    rw [List.map_cons, List.map_cons] at hinner
    simp only [List.map_cons, junction, Option.map_some, ← hinner]
    simp [erase, Fragment.erase]

end Draft

-- ---------------------------------------------------------------------------
-- Filters and selections
-- ---------------------------------------------------------------------------

mutual

/-- The filter without the contents of its literals. -/
def Filter.erase : Filter → Filter
  | .leaf comparison => .leaf (Comparison.erase comparison)
  | .all children => .all (Filter.eraseEach children)
  | .any children => .any (Filter.eraseEach children)
  termination_by structural f => f

/-- The filters without the contents of their literals. -/
def Filter.eraseEach : List Filter → List Filter
  | [] => []
  | child :: rest => Filter.erase child :: Filter.eraseEach rest
  termination_by structural fs => fs

/-- The comparison without the contents of its literals. -/
def Comparison.erase : Comparison → Comparison
  | ⟨property, operator, operand, negated⟩ => ⟨property, operator, Operand.erase operand, negated⟩
  termination_by structural c => c

/-- The operand without the contents of its literals. -/
def Operand.erase : Operand → Operand
  | .literal value => .literal value.erase
  | .selection selection => .selection (Selection.erase selection)
  termination_by structural o => o

/-- The selection without the contents of its literals. -/
def Selection.erase : Selection → Selection
  | ⟨target, none, history, traversal⟩ => ⟨target, none, history, traversal⟩
  | ⟨target, some filter, history, traversal⟩ =>
    ⟨target, some (Filter.erase filter), history, traversal⟩
  termination_by structural s => s

end

namespace Filter

/-- The members of a junction are erased one by one. -/
theorem eraseEach_eq_map (fs : List Filter) : eraseEach fs = fs.map erase := by
  induction fs with
  | nil => rfl
  | cons f rest ih => rw [eraseEach, ih, List.map_cons]

theorem erase_active : active.erase = active := by
  rw [active, erase, Comparison.isNull, Comparison.equals, Comparison.erase, Operand.erase]
  rfl

theorem erase_andAlso (f g : Filter) : (f.andAlso g).erase = f.erase.andAlso g.erase := by
  cases f <;> simp [andAlso, erase, eraseEach_eq_map]

/-- Erasure keeps what is said beforehand about the text of a filter: whether there is one, and
whether it will have parentheses of its own. -/
theorem shape_erase (f : Filter) :
    f.erase.isEmpty = f.isEmpty ∧ f.erase.rendersGrouped = f.rendersGrouped := by
  -- the members of a junction, with what is known of each
  have heach : ∀ {fs : List Filter}, (∀ f ∈ fs, f.erase.isEmpty = f.isEmpty ∧
      f.erase.rendersGrouped = f.rendersGrouped) →
      areEmpty (fs.map erase) = areEmpty fs ∧
        junctionGrouped (fs.map erase) = junctionGrouped fs := by
    intro fs h
    induction fs with
    | nil => exact ⟨rfl, rfl⟩
    | cons f rest ih =>
      obtain ⟨hf, hgrouped⟩ := h f (List.mem_cons_self ..)
      obtain ⟨hrest, hgroups⟩ := ih fun g hg => h g (List.mem_cons_of_mem _ hg)
      simp [areEmpty, junctionGrouped, hf, hgrouped, hrest, hgroups]
  induction f using Filter.induction with
  | leaf comparison => simp [erase, isEmpty, rendersGrouped]
  | all children ih => simp [erase, isEmpty, rendersGrouped, eraseEach_eq_map, heach ih]
  | any children ih => simp [erase, isEmpty, rendersGrouped, eraseEach_eq_map, heach ih]

/-- If the draft of each filter is erased with it, so are the drafts of all of them. -/
theorem draftEach_map_erase {fs : List Filter}
    (h : ∀ f ∈ fs, f.erase.draft = f.draft.map Draft.erase) :
    draftEach (fs.map erase) = (draftEach fs).map Draft.erase := by
  rw [draftEach_eq_filterMap, draftEach_eq_filterMap, List.filterMap_map, List.map_filterMap]
  exact List.filterMap_congr h

end Filter

namespace Selection

theorem erase_eq (s : Selection) : s.erase = { s with filter := s.filter.map Filter.erase } := by
  obtain ⟨target, filter, history, traversal⟩ := s
  cases filter <;> rw [erase] <;> rfl

/-- The effective filter is erased with the filter: the condition that records are active stays. -/
theorem effectiveFilter_erase (s : Selection) :
    s.erase.effectiveFilter = s.effectiveFilter.map Filter.erase := by
  obtain ⟨target, filter, history, traversal⟩ := s
  cases filter <;> cases history <;>
    simp [erase_eq, effectiveFilter, Filter.erase_andAlso, Filter.erase_active]

end Selection

/-- Drafts keep step with erasure: what is fixed in the text stays as it is, and a literal is
replaced in its place. -/
theorem draft_erase :
    (∀ f : Filter, f.erase.draft = f.draft.map Draft.erase) ∧
      ∀ s : Selection, s.erase.draft = s.draft.erase := by
  refine Selection.induction ?_ ?_ ?_ ?_ ?_
  · intro property operator value negated
    rw [Filter.erase, Comparison.erase, Operand.erase, Filter.draft, Filter.draft,
      Comparison.draft, Comparison.draft, Operand.draft, Operand.draft, Value.isNull_erase,
      Option.map_some, Draft.erase_negation]
    split <;> rfl
  · intro property operator s negated ih
    rw [Filter.erase, Comparison.erase, Operand.erase, Filter.draft, Filter.draft,
      Comparison.draft, Comparison.draft, Operand.draft, Operand.draft, ih, Option.map_some,
      Draft.erase_negation]
    simp [Draft.erase, Fragment.erase]
  · intro children ih
    rw [Filter.erase, Filter.draft, Filter.draft, Draft.erase_junction, Filter.eraseEach_eq_map,
      Filter.draftEach_map_erase ih]
  · intro children ih
    rw [Filter.erase, Filter.draft, Filter.draft, Draft.erase_junction, Filter.eraseEach_eq_map,
      Filter.draftEach_map_erase ih]
  · intro s _ heffective
    -- the draft is around that of the effective filter, for which the equation is known
    have hfilter := s.effectiveFilter_erase
    rw [Selection.erase_eq] at hfilter ⊢
    obtain ⟨target, filter, history, traversal⟩ := s
    cases target with
    | records ids =>
      rw [Selection.draft, Selection.draft]
      rfl
    | named className =>
      rw [Selection.draft_named, Selection.draft_named, hfilter]
      generalize Selection.effectiveFilter ⟨.named className, filter, history, traversal⟩ = e
        at heffective
      cases e with
      | none => rfl
      | some f =>
        have hf := heffective f rfl
        simp only [Option.map_some, Option.bind_some, Option.any_some, hf, f.shape_erase.2]
        cases f.draft <;> simp [Traversal.draft, Draft.erase, Fragment.erase]

theorem Selection.draft_erase (s : Selection) : s.erase.draft = s.draft.erase :=
  RecordQuery.draft_erase.2 s

-- ---------------------------------------------------------------------------
-- Criteria and requests
-- ---------------------------------------------------------------------------

mutual

/-- The criterion without the contents of its literals. -/
def Criterion.erase : Criterion → Criterion
  | .leaf comparison => .leaf (WantedComparison.erase comparison)
  | .all children => .all (Criterion.eraseEach children)
  | .any children => .any (Criterion.eraseEach children)
  termination_by structural c => c

/-- The criteria without the contents of their literals. -/
def Criterion.eraseEach : List Criterion → List Criterion
  | [] => []
  | child :: rest => Criterion.erase child :: Criterion.eraseEach rest
  termination_by structural cs => cs

/-- The wanted comparison without the contents of its literals. -/
def WantedComparison.erase : WantedComparison → WantedComparison
  | ⟨property, operator, operand, negated⟩ =>
    ⟨property, operator, WantedOperand.erase operand, negated⟩
  termination_by structural c => c

/-- The wanted operand without the contents of its literals. -/
def WantedOperand.erase : WantedOperand → WantedOperand
  | .literal value => .literal value.erase
  | .request request => .request (Request.erase request)
  termination_by structural o => o

/-- The request without the contents of its literals. -/
def Request.erase : Request → Request
  | ⟨target, none, neighbors, style, edges, direction, depth, returnProperties, orderBy,
      orderByDirection, skip, limit, history, count⟩ =>
    ⟨target, none, neighbors, style, edges, direction, depth, returnProperties, orderBy,
      orderByDirection, skip, limit, history, count⟩
  | ⟨target, some criterion, neighbors, style, edges, direction, depth, returnProperties, orderBy,
      orderByDirection, skip, limit, history, count⟩ =>
    ⟨target, some (Criterion.erase criterion), neighbors, style, edges, direction, depth,
      returnProperties, orderBy, orderByDirection, skip, limit, history, count⟩
  termination_by structural r => r

end

namespace Criterion

/-- Wanted criteria are erased one by one. -/
theorem eraseEach_eq_map (cs : List Criterion) : eraseEach cs = cs.map erase := by
  induction cs with
  | nil => rfl
  | cons c rest ih => rw [eraseEach, ih, List.map_cons]

/-- A wanted literal is erased where it stands. -/
theorem erase_literal (property : String) (operator : Option Operator) (value : Value)
    (negated : Bool) :
    erase (.leaf ⟨property, operator, .literal value, negated⟩) =
      .leaf ⟨property, operator, .literal value.erase, negated⟩ := by
  rw [erase, WantedComparison.erase, WantedOperand.erase]

/-- A wanted request is erased where it stands. -/
theorem erase_request (property : String) (operator : Option Operator) (r : Request)
    (negated : Bool) :
    erase (.leaf ⟨property, operator, .request r, negated⟩) =
      .leaf ⟨property, operator, .request r.erase, negated⟩ := by
  rw [erase, WantedComparison.erase, WantedOperand.erase]

theorem erase_all (cs : List Criterion) : erase (.all cs) = .all (cs.map erase) := by
  rw [erase, eraseEach_eq_map]

theorem erase_any (cs : List Criterion) : erase (.any cs) = .any (cs.map erase) := by
  rw [erase, eraseEach_eq_map]

-- ---------------------------------------------------------------------------
-- What has the erasure of a criterion has its form
-- ---------------------------------------------------------------------------

variable {property : String} {operator : Option Operator} {negated : Bool} {c : Criterion}

/-- What is erased to a comparison with a literal was one, with the same property, operator and
negation. -/
theorem erase_eq_literal {w : Value}
    (h : c.erase = .leaf ⟨property, operator, .literal w, negated⟩) :
    ∃ v, c = .leaf ⟨property, operator, .literal v, negated⟩ ∧ v.erase = w := by
  match c with
  | .leaf ⟨p, o, .literal v, n⟩ =>
    rw [erase_literal] at h
    cases h
    exact ⟨v, rfl, rfl⟩
  | .leaf ⟨p, o, .request r, n⟩ =>
    rw [erase_request] at h
    cases h
  | .all cs =>
    rw [erase_all] at h
    cases h
  | .any cs =>
    rw [erase_any] at h
    cases h

/-- What is erased to a comparison with a request was one. -/
theorem erase_eq_request {w : Request}
    (h : c.erase = .leaf ⟨property, operator, .request w, negated⟩) :
    ∃ r, c = .leaf ⟨property, operator, .request r, negated⟩ ∧ r.erase = w := by
  match c with
  | .leaf ⟨p, o, .literal v, n⟩ =>
    rw [erase_literal] at h
    cases h
  | .leaf ⟨p, o, .request r, n⟩ =>
    rw [erase_request] at h
    cases h
    exact ⟨r, rfl, rfl⟩
  | .all cs =>
    rw [erase_all] at h
    cases h
  | .any cs =>
    rw [erase_any] at h
    cases h

/-- What is erased to a conjunction was one. -/
theorem erase_eq_all {ds : List Criterion} (h : c.erase = .all ds) :
    ∃ cs, c = .all cs ∧ cs.map erase = ds := by
  match c with
  | .leaf comparison =>
    rw [erase] at h
    cases h
  | .all cs =>
    rw [erase_all] at h
    exact ⟨cs, rfl, Criterion.all.inj h⟩
  | .any cs =>
    rw [erase_any] at h
    cases h

/-- What is erased to a disjunction was one. -/
theorem erase_eq_any {ds : List Criterion} (h : c.erase = .any ds) :
    ∃ cs, c = .any cs ∧ cs.map erase = ds := by
  match c with
  | .leaf comparison =>
    rw [erase] at h
    cases h
  | .all cs =>
    rw [erase_all] at h
    cases h
  | .any cs =>
    rw [erase_any] at h
    exact ⟨cs, rfl, Criterion.any.inj h⟩

end Criterion

namespace Request

/-- Only the criteria of a request are erased. -/
theorem erase_eq (r : Request) : r.erase = { r with filters := r.filters.map Criterion.erase } := by
  obtain ⟨target, filters, neighbors, style, edges, direction, depth, returnProperties, orderBy,
    orderByDirection, skip, limit, history, count⟩ := r
  cases filters <;> rw [erase] <;> rfl

/-- The outer options are taken away from a request whether it is erased before or after. -/
theorem erase_inner (r : Request) : r.inner.erase = r.erase.inner := by
  rw [erase_eq, erase_eq]
  rfl

/-- Requests with one erasure differ in their criteria at most. -/
theorem eq_of_erase_eq {r s : Request} (h : r.erase = s.erase) :
    r = { s with filters := r.filters } ∧
      r.filters.map Criterion.erase = s.filters.map Criterion.erase := by
  obtain ⟨target, filters, neighbors, style, edges, direction, depth, returnProperties, orderBy,
    orderByDirection, skip, limit, history, count⟩ := r
  obtain ⟨target', filters', neighbors', style', edges', direction', depth', returnProperties',
    orderBy', orderByDirection', skip', limit', history', count'⟩ := s
  rw [erase_eq, erase_eq, Request.mk.injEq] at h
  obtain ⟨rfl, hfilters, rfl, rfl, rfl, rfl, rfl, rfl, rfl, rfl, rfl, rfl, rfl, rfl⟩ := h
  exact ⟨rfl, hfilters⟩

end Request

-- ---------------------------------------------------------------------------
-- Checking
-- ---------------------------------------------------------------------------

/-- The operator of a comparison that leaves it open depends on the kind of the literal alone. -/
theorem ClassModel.defaultOperator_congr (model : ClassModel) (property : String) {v w : Value}
    (h : v.kind = w.kind) : model.defaultOperator property v = model.defaultOperator property w := by
  cases v <;> cases w <;> first | rfl | cases h

variable {schema : Schema} {limits : Limits}

/-- A filter is dropped for having no comparison, and it has as many when it is erased. -/
theorem Request.keepFilter_map_erase (filter : Option Filter) :
    (keepFilter filter).map Filter.erase = keepFilter (filter.map Filter.erase) := by
  cases filter with
  | none => rfl
  | some f => cases hempty : f.isEmpty <;> simp [keepFilter, Option.filter, f.shape_erase.1, hempty]

/-- Members with one erasure become members with one erasure if all of them are accepted. -/
theorem Criterion.map_erase_eq_of_lower {model : ClassModel} {cs ds : List Criterion}
    {fs gs : List Filter}
    (hcs : List.Forall₂ (fun c f => ∀ d g, d.erase = c.erase →
      Criterion.lower schema limits model d = .ok g → g.erase = f.erase) cs fs)
    (hsame : ds.map erase = cs.map erase)
    (hds : List.Forall₂ (fun d g => Criterion.lower schema limits model d = .ok g) ds gs) :
    gs.map Filter.erase = fs.map Filter.erase := by
  induction hcs generalizing ds gs with
  | nil =>
    obtain rfl := List.map_eq_nil_iff.1 hsame
    cases hds
    rfl
  | cons hfirst _ ih =>
    cases hds with
    | nil => cases hsame
    | cons hlower hrest =>
      obtain ⟨hhead, htail⟩ := List.cons.inj hsame
      rw [List.map_cons, List.map_cons, hfirst _ _ hhead hlower, ih htail hrest]

/-- The same of a criterion that may be missing. -/
theorem Criterion.option_map_erase_eq_of_lower {model : ClassModel} {c d : Option Criterion}
    {f g : Option Filter}
    (hc : Option.Rel (fun c f => ∀ d g, d.erase = c.erase →
      Criterion.lower schema limits model d = .ok g → g.erase = f.erase) c f)
    (hsame : d.map erase = c.map erase)
    (hd : Option.Rel (fun d g => Criterion.lower schema limits model d = .ok g) d g) :
    g.map Filter.erase = f.map Filter.erase := by
  cases hc with
  | none =>
    obtain rfl := Option.map_eq_none_iff.1 hsame
    cases hd
    rfl
  | some hlower =>
    cases hd with
    | none => cases hsame
    | some hlower' =>
      rw [Option.map_some, Option.map_some, hlower _ _ (Option.some.inj hsame) hlower']

namespace Selection

/-- Accepted requests with one erasure become selections with one erasure. The induction is on the
way in which one of the two was accepted, for every request that is erased to the same. -/
theorem erase_eq_of_ofRequest {r r' : Request} {s s' : Selection}
    (hr : ofRequest schema limits r = .ok s) (hr' : ofRequest schema limits r' = .ok s')
    (h : r'.erase = r.erase) : s'.erase = s.erase := by
  refine (ofRequest_induction
    (P := fun model c f => ∀ d g, d.erase = c.erase →
      Criterion.lower schema limits model d = .ok g → g.erase = f.erase)
    (Q := fun r s => ∀ r' s', r'.erase = r.erase → ofRequest schema limits r' = .ok s' →
      s'.erase = s.erase) ?_ ?_ ?_ ?_ ?_ ?_).2 r s hr r' s' h hr'
  · intro model property operator value negated type _ _ d g hd hg
    rw [Criterion.erase_literal] at hd
    obtain ⟨w, rfl, hw⟩ := Criterion.erase_eq_literal hd
    obtain ⟨_, _, _, rfl⟩ := Criterion.lower_literal_eq_ok.1 hg
    -- the default operator is chosen by the kind of the literal, which is the same in both
    rw [model.defaultOperator_congr property (Value.kind_eq_of_erase_eq hw), Filter.erase,
      Filter.erase, Comparison.erase, Comparison.erase, Operand.erase, Operand.erase, hw]
  · intro model property operator request s negated type ih _ _ d g hd hg
    rw [Criterion.erase_request] at hd
    obtain ⟨request', rfl, hrequest⟩ := Criterion.erase_eq_request hd
    obtain ⟨s', _, hs', _, _, rfl⟩ := Criterion.lower_request_eq_ok.1 hg
    rw [Filter.erase, Filter.erase, Comparison.erase, Comparison.erase, Operand.erase,
      Operand.erase, ih request' s' hrequest hs']
  · intro model cs fs ih d g hd hg
    rw [Criterion.erase_all] at hd
    obtain ⟨ds, rfl, hds⟩ := Criterion.erase_eq_all hd
    obtain ⟨gs, hgs, rfl⟩ := Criterion.lower_all_eq_ok.1 hg
    rw [Filter.erase, Filter.erase, Filter.eraseEach_eq_map, Filter.eraseEach_eq_map,
      Criterion.map_erase_eq_of_lower ih hds hgs]
  · intro model cs fs ih d g hd hg
    rw [Criterion.erase_any] at hd
    obtain ⟨ds, rfl, hds⟩ := Criterion.erase_eq_any hd
    obtain ⟨gs, hgs, rfl⟩ := Criterion.lower_any_eq_ok.1 hg
    rw [Filter.erase, Filter.erase, Filter.eraseEach_eq_map, Filter.eraseEach_eq_map,
      Criterion.map_erase_eq_of_lower ih hds hgs]
  · intro r texts ids _ htarget _ _ hids r' s' hsame hs'
    obtain ⟨hfields, -⟩ := Request.eq_of_erase_eq hsame
    have htarget' : r'.target = .records texts := by rw [hfields, htarget]
    have hhistory : r'.history = r.history := by rw [hfields]
    obtain ⟨_, _, _, ids', hids', rfl⟩ := (ofRequest_records_eq_ok htarget').1 hs'
    obtain rfl := Except.ok.inj (hids'.symm.trans hids)
    rw [hhistory]
  · intro r className model filter traversal _ htarget hmodel ih htraversal r' s' hsame hs'
    obtain ⟨hfields, hfilters⟩ := Request.eq_of_erase_eq hsame
    have htarget' : r'.target = .named className := by rw [hfields, htarget]
    have hhistory : r'.history = r.history := by rw [hfields]
    have htraversals : r'.traversal schema limits = r.traversal schema limits := by
      rw [hfields]
      rfl
    obtain ⟨_, model', hmodel', filter', hfilter', traversal', htraversal', rfl⟩ :=
      (ofRequest_named_eq_ok htarget').1 hs'
    -- both requests look up one class and have one traversal, so only the filters can differ
    obtain rfl := Option.some.inj (hmodel'.symm.trans hmodel)
    rw [htraversals, htraversal] at htraversal'
    obtain rfl := Except.ok.inj htraversal'
    have hfilter : filter'.map Filter.erase = filter.map Filter.erase :=
      Criterion.option_map_erase_eq_of_lower ih hfilters hfilter'
    rw [erase_eq, erase_eq, hhistory]
    dsimp only
    rw [Request.keepFilter_map_erase, Request.keepFilter_map_erase, hfilter]

end Selection

namespace Query

/-- The outer options do not depend on the criteria: paths, order and counts are checked against the
class alone. -/
theorem options_eq_of_erase_eq {r r' : Request} {q q' : Query}
    (hr : ofRequest schema limits r = .ok q) (hr' : ofRequest schema limits r' = .ok q')
    (h : r'.erase = r.erase) : q'.options = q.options := by
  obtain ⟨hfields, -⟩ := Request.eq_of_erase_eq h
  obtain ⟨-, _, -, target, model, hmodel, -, projection, hprojection, rfl⟩ := ofRequest_eq_ok.1 hr
  obtain ⟨-, _, -, target', model', hmodel', -, projection', hprojection', rfl⟩ :=
    ofRequest_eq_ok.1 hr'
  have htarget : r'.target = r.target := by rw [hfields]
  rw [htarget, hmodel] at hmodel'
  obtain ⟨rfl, rfl⟩ := Prod.mk.inj (Except.ok.inj hmodel')
  -- the projection is asked for by fields that are no criteria
  have hsame : projection? schema model r' = projection? schema model r := by
    rw [hfields]
    rfl
  rw [hsame, hprojection] at hprojection'
  obtain rfl := Except.ok.inj hprojection'
  rw [hfields]

/-- Accepted requests that differ in the contents of their literals only, each literal keeping its
kind, have one text, and the same names are bound. -/
theorem text_eq_of_erase_eq {r r' : Request} {q q' : Query}
    (hr : ofRequest schema limits r = .ok q) (hr' : ofRequest schema limits r' = .ok q')
    (h : r'.erase = r.erase) :
    q'.toStatement.text = q.toStatement.text ∧
      Dictionary.keys q'.toStatement.params = Dictionary.keys q.toStatement.params := by
  -- the options do not look at the criteria, and the drafts are the same but for their literals
  have hoptions := options_eq_of_erase_eq hr hr' h
  have hdrafts : q'.selection.draft.erase = q.selection.draft.erase := by
    obtain ⟨-, selection, hselection, -, -, -, -, -, -, rfl⟩ := ofRequest_eq_ok.1 hr
    obtain ⟨-, selection', hselection', -, -, -, -, -, -, rfl⟩ := ofRequest_eq_ok.1 hr'
    have hinner : r'.inner.erase = r.inner.erase := by
      rw [Request.erase_inner, Request.erase_inner, h]
    rw [← Selection.draft_erase, ← Selection.draft_erase,
      Selection.erase_eq_of_ofRequest hselection hselection' hinner]
  have htext : q'.selection.draft.spell 0 = q.selection.draft.spell 0 := by
    rw [← Draft.spell_erase, hdrafts, Draft.spell_erase]
  have hlength : q'.selection.literals.length = q.selection.literals.length := by
    have hliterals := congrArg (fun d => (Draft.literals d).length) hdrafts
    simpa [Draft.literals_erase, Selection.literals] using hliterals
  rw [toStatement_eq_draft, toStatement_eq_draft, hoptions, htext]
  exact ⟨rfl, Binder.keys_bindAll_congr rfl rfl hlength⟩

/-- The people with a name, or with a friend who is older than an age. -/
def namedOrFriendRequest (name : String) (age : Int64) : Request :=
  { Request.ofClass "Person" with
    filters := some (.any [
      .leaf ⟨"name", none, .literal (.string name), false⟩,
      .leaf ⟨"friends", none, .request
        { Request.ofClass "Person" with
          filters := some (.leaf ⟨"age", some .greater, .literal (.int age), false⟩) }, true⟩])
    limit := some 10 }

/-- A text that reads like a condition and a placeholder in the place of a name, and a negative
age. -/
theorem text_eq_of_namedOrFriendRequest :
    (namedOrFriendRequest "' OR :param7" (-1)).erase = (namedOrFriendRequest "Ann" 30).erase ∧
      ∃ q q', ofRequest peopleSchema {} (namedOrFriendRequest "Ann" 30) = .ok q ∧
        ofRequest peopleSchema {} (namedOrFriendRequest "' OR :param7" (-1)) = .ok q' ∧
        q'.toStatement.text = q.toStatement.text ∧
        Dictionary.keys q'.toStatement.params = Dictionary.keys q.toStatement.params := by
  refine ⟨rfl, _, _, rfl, rfl, ?_⟩
  exact @text_eq_of_erase_eq peopleSchema {} (namedOrFriendRequest "Ann" 30)
    (namedOrFriendRequest "' OR :param7" (-1)) _ _ rfl rfl rfl

end Query

end RecordQuery
