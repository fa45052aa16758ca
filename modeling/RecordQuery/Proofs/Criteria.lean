import RecordQuery.Proofs.Lowering
import RecordQuery.Proofs.Meaning

/-!
# What criteria mean

Criteria are true or false under truth values for their comparisons, and so is the filter that they
become. Checking them changes neither: it may choose an operator, and turns nested requests into
selections, but keeps the tree. The condition that records are active is conjoined to that tree
whatever its shape is.

* `Criterion.holds`, `Request.isMet` — the truth of what is asked for.
* `Criterion.became_of_lower` — the filter of criteria has their comparisons and their truth.
* `Filter.holds_andAlso` — a filter with one more condition is true if both are.
* `Selection.isMet_eq` — so is the condition of a selection, unless the history is asked for.
* `Request.keepFilter_of_lower` — a filter that is dropped asked for nothing.
-/

namespace RecordQuery

-- ---------------------------------------------------------------------------
-- What criteria mean
-- ---------------------------------------------------------------------------

namespace Criterion

mutual

/-- The comparisons of a criterion from left to right, not those inside nested requests. -/
def comparisons : Criterion → List WantedComparison
  | .leaf comparison => [comparison]
  | .all children => comparisonsEach children
  | .any children => comparisonsEach children
  termination_by structural c => c

/-- The comparisons of a list of criteria. -/
def comparisonsEach : List Criterion → List WantedComparison
  | [] => []
  | child :: rest => comparisons child ++ comparisonsEach rest
  termination_by structural cs => cs

end

mutual

/-- Whether a criterion is true if its comparisons have the truth values from number `n` on. -/
def holds (truth : Nat → Bool) : Nat → Criterion → Bool
  | n, .leaf ⟨_, _, _, negated⟩ => truth n ^^ negated
  | n, .all children => holdAll truth n children
  | n, .any children => holdAny truth n children
  termination_by structural _ c => c

/-- Whether all criteria that have a comparison are true. -/
def holdAll (truth : Nat → Bool) : Nat → List Criterion → Bool
  | _, [] => true
  | n, child :: rest =>
    ((comparisons child).isEmpty || holds truth n child) &&
      holdAll truth (n + (comparisons child).length) rest
  termination_by structural _ cs => cs

/-- Whether one of the criteria that have a comparison is true. -/
def holdAny (truth : Nat → Bool) : Nat → List Criterion → Bool
  | _, [] => false
  | n, child :: rest =>
    (!(comparisons child).isEmpty && holds truth n child) ||
      holdAny truth (n + (comparisons child).length) rest
  termination_by structural _ cs => cs

end

/-- Induction over criteria that does not look into nested requests. -/
theorem induction {P : Criterion → Prop} (leaf : ∀ comparison, P (.leaf comparison))
    (all : ∀ children, (∀ child ∈ children, P child) → P (.all children))
    (any : ∀ children, (∀ child ∈ children, P child) → P (.any children)) (c : Criterion) : P c :=
  (Request.induction (Q := fun _ => True) (fun _ _ _ _ => leaf _) (fun _ _ _ _ _ => leaf _) all
    any fun _ _ => trivial).1 c

end Criterion

namespace Request

/-- The comparisons of a request, not those of the requests nested in it. -/
def comparisons (r : Request) : List WantedComparison := r.filters.elim [] Criterion.comparisons

/-- Whether the criteria of a request are true. Without a comparison they ask for nothing. -/
def isMet (truth : Nat → Bool) (r : Request) : Bool :=
  r.filters.all fun c => c.comparisons.isEmpty || c.holds truth 0

end Request

namespace Selection

/-- The comparisons of the condition of a selection. -/
def comparisons (s : Selection) : List Comparison := s.effectiveFilter.elim [] Filter.comparisons

/-- Whether the condition of a selection is true. -/
def isMet (truth : Nat → Bool) (s : Selection) : Bool :=
  s.effectiveFilter.all fun f => f.holds truth 0

end Selection

-- ---------------------------------------------------------------------------
-- From criteria to filters
-- ---------------------------------------------------------------------------

variable {schema : Schema} {limits : Limits} {model : ClassModel}

/-- Checking a comparison leaves its negation as it was wanted. -/
theorem WantedComparison.negated_of_lower {wanted : WantedComparison} {c : Comparison}
    (h : wanted.lower schema limits model = .ok c) : c.negated = wanted.negated := by
  obtain ⟨property, operator, operand, negated⟩ := wanted
  rw [lower] at h
  cases operand with
  | literal value =>
    rw [WantedOperand.lower] at h
    obtain ⟨type, -, -, rfl⟩ := Comparison.ofLiteral_eq_ok.1 h
    rfl
  | request r =>
    rw [WantedOperand.lower] at h
    split at h
    · cases h
    · obtain ⟨type, -, -, rfl⟩ := Comparison.ofSelection_eq_ok.1 h
      rfl

/-- A filter has the comparisons of a criterion, one for one, and its truth. -/
structure Criterion.Became (schema : Schema) (limits : Limits) (model : ClassModel) (c : Criterion)
    (f : Filter) : Prop where
  comparisons : List.Forall₂ (fun wanted d => wanted.lower schema limits model = .ok d)
    c.comparisons f.comparisons
  isEmpty : f.isEmpty = c.comparisons.isEmpty
  holds : ∀ truth n, f.holds truth n = c.holds truth n

namespace Criterion

theorem Became.leafCount {c : Criterion} {f : Filter} (h : c.Became schema limits model f) :
    f.leafCount = c.comparisons.length := by
  rw [← f.length_comparisons, h.comparisons.length_eq]

/-- The members of a junction keep their comparisons and their truth together. A member is empty as
a filter if it is as a criterion, so both sides pass over the same members. -/
theorem Became.each {cs : List Criterion} {fs : List Filter}
    (h : List.Forall₂ (Became schema limits model) cs fs) :
    List.Forall₂ (fun wanted d => wanted.lower schema limits model = .ok d)
        (comparisonsEach cs) (Filter.comparisonsEach fs) ∧
      Filter.areEmpty fs = (comparisonsEach cs).isEmpty ∧
      ∀ truth n, Filter.holdAll truth n fs = holdAll truth n cs ∧
        Filter.holdAny truth n fs = holdAny truth n cs := by
  induction h with
  | nil => exact ⟨.nil, rfl, fun _ _ => ⟨rfl, rfl⟩⟩
  | @cons c f cs fs hfirst hrest ih =>
    obtain ⟨hcomparisons, hempty, htruth⟩ := ih
    -- members are numbered through, so each starts behind the leaves of those before it
    refine ⟨?_, ?_, fun truth n => ⟨?_, ?_⟩⟩
    · rw [comparisonsEach, Filter.comparisonsEach]
      exact List.rel_append hfirst.comparisons hcomparisons
    · rw [comparisonsEach, Filter.areEmpty, hfirst.isEmpty, hempty]
      cases c.comparisons <;> rfl
    · rw [holdAll, Filter.holdAll, hfirst.isEmpty, hfirst.holds, hfirst.leafCount, (htruth _ _).1]
    · rw [holdAny, Filter.holdAny, hfirst.isEmpty, hfirst.holds, hfirst.leafCount, (htruth _ _).2]

/-- Checking a criterion changes nothing about its comparisons and its truth: the filter has one
comparison for each of the criterion, in the same order, and joins them in the same way. -/
theorem became_of_lower {c : Criterion} {f : Filter} (h : c.lower schema limits model = .ok f) :
    c.Became schema limits model f := by
  induction c using Criterion.induction generalizing f with
  | leaf comparison =>
    rw [lower] at h
    obtain ⟨d, hd, rfl⟩ := map_eq_ok.1 h
    refine ⟨?_, ?_, fun truth n => ?_⟩
    · rw [comparisons, Filter.comparisons]
      exact .cons hd .nil
    · rw [comparisons, Filter.isEmpty]
      rfl
    -- the leaf is true or false as its comparison is, and its negation was kept
    · obtain ⟨property, operator, operand, negated⟩ := comparison
      obtain ⟨_, _, _, found⟩ := d
      have hnegated : found = negated := WantedComparison.negated_of_lower hd
      rw [holds, Filter.holds, hnegated]
  | all children ih =>
    obtain ⟨fs, hfs, rfl⟩ := lower_all_eq_ok.1 h
    have hchildren := forall₂_imp_of_mem (fun c hc f hlower => ih c hc hlower) hfs
    obtain ⟨hcomparisons, hempty, htruth⟩ := Became.each hchildren
    refine ⟨?_, ?_, fun truth n => ?_⟩
    · rwa [comparisons, Filter.comparisons]
    · rwa [comparisons, Filter.isEmpty]
    · rw [holds, Filter.holds, (htruth truth n).1]
  | any children ih =>
    obtain ⟨fs, hfs, rfl⟩ := lower_any_eq_ok.1 h
    have hchildren := forall₂_imp_of_mem (fun c hc f hlower => ih c hc hlower) hfs
    obtain ⟨hcomparisons, hempty, htruth⟩ := Became.each hchildren
    refine ⟨?_, ?_, fun truth n => ?_⟩
    · rwa [comparisons, Filter.comparisons]
    · rwa [comparisons, Filter.isEmpty]
    · rw [holds, Filter.holds, (htruth truth n).2]

end Criterion

-- ---------------------------------------------------------------------------
-- One more condition
-- ---------------------------------------------------------------------------

namespace Filter

theorem comparisons_active : active.comparisons = [Comparison.isNull deletionTime] := by
  rw [active, comparisons]

theorem comparisons_andAlso (f g : Filter) :
    (f.andAlso g).comparisons = f.comparisons ++ g.comparisons := by
  cases f <;> simp [andAlso, comparisons, comparisonsEach_eq_flatMap]

theorem isEmpty_andAlso (f g : Filter) : (f.andAlso g).isEmpty = (f.isEmpty && g.isEmpty) := by
  cases f <;> simp [andAlso, isEmpty, areEmpty, areEmpty_eq_all]

theorem isEmpty_active : active.isEmpty = false := by rw [active, isEmpty]

/-- Members one behind the other hold if both parts do; those of the second part are numbered behind
the leaves of the first. -/
theorem holdAll_append (truth : Nat → Bool) (n : Nat) (front back : List Filter) :
    holdAll truth n (front ++ back) =
      (holdAll truth n front && holdAll truth (n + leafCounts front) back) := by
  induction front generalizing n with
  | nil => simp [holdAll, leafCounts]
  | cons f rest ih => simp [holdAll, leafCounts, ih, Bool.and_assoc, Nat.add_assoc]

/-- A filter with one more condition is true if both are, whatever its shape: a conjunction takes
the condition as its last member, and anything else is paired with it. -/
theorem holds_andAlso (truth : Nat → Bool) {f g : Filter} (hf : f.isEmpty = false)
    (hg : g.isEmpty = false) :
    (f.andAlso g).holds truth 0 = (f.holds truth 0 && g.holds truth f.leafCount) := by
  have hlast : ∀ n, holdAll truth n [g] = g.holds truth n := by
    intro n
    simp [holdAll, hg]
  have hpair : holdAll truth 0 [f, g] = (f.holds truth 0 && g.holds truth f.leafCount) := by
    rw [holdAll, hf, hlast]
    simp
  cases f with
  | leaf comparison =>
    -- whatever is no conjunction becomes the first of two members
    show (all [leaf comparison, g]).holds truth 0 = _
    rw [holds, hpair]
  | any children =>
    show (all [any children, g]).holds truth 0 = _
    rw [holds, hpair]
  | all children =>
    rw [andAlso, holds, holdAll_append, hlast, holds, leafCount, Nat.zero_add]

end Filter

namespace Selection

/-- The comparisons of a selection are those of its filter, and that of the deletion time unless it
has the history. -/
theorem comparisons_eq (s : Selection) :
    s.comparisons = s.filter.elim [] Filter.comparisons ++
      if s.history then [] else [Comparison.isNull deletionTime] := by
  obtain ⟨target, filter, history, traversal⟩ := s
  cases filter <;> cases history <;>
    simp [comparisons, effectiveFilter, Filter.comparisons_andAlso, Filter.comparisons_active]

/-- The effective filter is never empty if the filter is not, for the condition that a record is
active has a comparison of its own. -/
theorem isEmpty_of_mem_effectiveFilter {s : Selection} (h : ∀ f ∈ s.filter, f.isEmpty = false)
    {f : Filter} (hf : f ∈ s.effectiveFilter) : f.isEmpty = false := by
  obtain ⟨target, filter, history, traversal⟩ := s
  cases filter with
  | none =>
    cases history with
    | true => cases hf
    | false =>
      cases hf
      exact Filter.isEmpty_active
  | some g =>
    have hg : g.isEmpty = false := h g rfl
    cases history with
    | true =>
      cases hf
      exact hg
    | false =>
      cases hf
      rw [Filter.isEmpty_andAlso, hg, Bool.false_and]

/-- The condition is true if the filter is, and the last comparison unless the history is asked
for. -/
theorem isMet_eq (truth : Nat → Bool) {s : Selection} (h : ∀ f ∈ s.filter, f.isEmpty = false) :
    s.isMet truth = ((s.filter.all fun f => f.holds truth 0) &&
      (s.history || truth (s.filter.elim [] Filter.comparisons).length)) := by
  obtain ⟨target, filter, history, traversal⟩ := s
  have hactive : ∀ n, Filter.active.holds truth n = truth n := by
    intro n
    rw [Filter.active, Comparison.isNull, Comparison.equals, Filter.holds, Bool.xor_false]
  cases filter with
  | none => cases history <;> simp [isMet, effectiveFilter, hactive]
  | some f =>
    have hf : f.isEmpty = false := h f rfl
    cases history <;>
      simp [isMet, effectiveFilter, Filter.holds_andAlso truth hf Filter.isEmpty_active, hactive,
        Filter.length_comparisons]

end Selection

/-- A filter that is not kept has no comparison, and neither have the criteria that it became of. -/
theorem Request.keepFilter_of_lower {wanted : Option Criterion} {filter : Option Filter}
    (h : Option.Rel (fun c f => Criterion.lower schema limits model c = .ok f) wanted filter) :
    List.Forall₂ (fun wanted d => WantedComparison.lower schema limits model wanted = .ok d)
        (wanted.elim [] Criterion.comparisons) ((keepFilter filter).elim [] Filter.comparisons) ∧
      ∀ truth, ((keepFilter filter).all fun f => f.holds truth 0) =
        wanted.all fun c => c.comparisons.isEmpty || c.holds truth 0 := by
  cases h with
  | none => exact ⟨.nil, fun _ => rfl⟩
  | @some c f hlower =>
    -- an empty filter is dropped with criteria that compare nothing
    have hbecame := Criterion.became_of_lower hlower
    rw [keepFilter_some, hbecame.isEmpty, Option.elim_some]
    split
    · next hempty =>
      rw [List.isEmpty_iff.1 hempty]
      exact ⟨.nil, fun truth => by simp [hempty]⟩
    · next hsome => exact ⟨hbecame.comparisons, fun truth => by simp [hsome, hbecame.holds]⟩

end RecordQuery
