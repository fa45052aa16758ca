import RecordQuery.Builder
import RecordQuery.Proofs.Criteria

/-!
# What the calls of a builder mean

A builder puts criteria together call by call. Groups of one member give way to the member, and a
further call joins the conjunction of the earlier ones or wraps what they made in a new one, so the
tree depends on everything said before. Its meaning does not: every call asks for the conjunction of
its predicates, and the request for the conjunction of the calls.

* `Predicate.comparisons`, `Predicate.holds`, `Predicate.HasEmptyGroup` — what a caller writes: its
  comparisons in order, its truth, and whether a group in it is empty.
* `Predicate.criterion_became` — a predicate has a criterion with its meaning, unless a group in it
  is empty.
* `Builder.Follows` — what the calls so far have made of a builder; `Builder.Follows.filter` and
  `Builder.Follows.option` are the steps of it.
* `Builder.build_run` — when finishing a request fails, and what the request asks for otherwise.
-/

namespace RecordQuery

-- ---------------------------------------------------------------------------
-- What a caller writes
-- ---------------------------------------------------------------------------

namespace Predicate

mutual

/-- The comparisons of a predicate in the order of the calls. -/
def comparisons : Predicate → List WantedComparison
  | .compare property operator value negated => [⟨property, some operator, .literal value, negated⟩]
  | .within property request => [⟨property, some .isIn, .request request, false⟩]
  | .all members => comparisonsEach members
  | .any members => comparisonsEach members
  termination_by structural p => p

/-- The comparisons of a list of predicates. -/
def comparisonsEach : List Predicate → List WantedComparison
  | [] => []
  | p :: rest => comparisons p ++ comparisonsEach rest
  termination_by structural ps => ps

end

mutual

/-- Whether a predicate is true if its comparisons have the truth values from number `n` on. -/
def holds (truth : Nat → Bool) : Nat → Predicate → Bool
  | n, .compare _ _ _ negated => truth n ^^ negated
  | n, .within _ _ => truth n
  | n, .all members => holdAll truth n members
  | n, .any members => holdAny truth n members
  termination_by structural _ p => p

/-- Whether all predicates are true. -/
def holdAll (truth : Nat → Bool) : Nat → List Predicate → Bool
  | _, [] => true
  | n, p :: rest => holds truth n p && holdAll truth (n + (comparisons p).length) rest
  termination_by structural _ ps => ps

/-- Whether one of the predicates is true. -/
def holdAny (truth : Nat → Bool) : Nat → List Predicate → Bool
  | _, [] => false
  | n, p :: rest => holds truth n p || holdAny truth (n + (comparisons p).length) rest
  termination_by structural _ ps => ps

end

/-- Somewhere in a predicate stands a group without a member. -/
inductive HasEmptyGroup : Predicate → Prop where
  | all : HasEmptyGroup (.all [])
  | any : HasEmptyGroup (.any [])
  | insideAll {p members} (hmember : p ∈ members) (h : HasEmptyGroup p) :
      HasEmptyGroup (.all members)
  | insideAny {p members} (hmember : p ∈ members) (h : HasEmptyGroup p) :
      HasEmptyGroup (.any members)

/-- The predicate of a group. -/
def group : Criterion.Junction → List Predicate → Predicate
  | .all, members => .all members
  | .any, members => .any members

/-- A group contains an empty one if it is empty or one of its members contains one. -/
theorem hasEmptyGroup_group {junction : Criterion.Junction} {members : List Predicate} :
    (group junction members).HasEmptyGroup ↔ members = [] ∨ ∃ p ∈ members, p.HasEmptyGroup := by
  constructor
  · intro h
    cases junction with
    | all =>
      cases h with
      | all => exact .inl rfl
      | insideAll hmember h => exact .inr ⟨_, hmember, h⟩
    | any =>
      cases h with
      | any => exact .inl rfl
      | insideAny hmember h => exact .inr ⟨_, hmember, h⟩
  · rintro (rfl | ⟨p, hmember, h⟩)
    · cases junction with
      | all => exact .all
      | any => exact .any
    · cases junction with
      | all => exact .insideAll hmember h
      | any => exact .insideAny hmember h

theorem comparisons_group (junction : Criterion.Junction) (members : List Predicate) :
    (group junction members).comparisons = comparisonsEach members := by
  cases junction <;> rw [group, comparisons]

theorem criterion_group (junction : Criterion.Junction) (members : List Predicate) :
    (group junction members).criterion = (criteria members).bind (Criterion.group junction) := by
  cases junction <;> rw [group, criterion]

/-- A group of one member is true if the member is. -/
theorem holds_group_singleton (junction : Criterion.Junction) (p : Predicate)
    (truth : Nat → Bool) (n : Nat) : (group junction [p]).holds truth n = p.holds truth n := by
  cases junction with
  | all => rw [group, holds, holdAll, holdAll, Bool.and_true]
  | any => rw [group, holds, holdAny, holdAny, Bool.or_false]

/-- Comparisons of members one behind the other. -/
theorem comparisonsEach_append (front back : List Predicate) :
    comparisonsEach (front ++ back) = comparisonsEach front ++ comparisonsEach back := by
  induction front with
  | nil => rfl
  | cons p rest ih => rw [List.cons_append, comparisonsEach, ih, comparisonsEach, List.append_assoc]

/-- Members one behind the other hold if both parts do; the comparisons of the second part are
numbered behind those of the first. -/
theorem holdAll_append (truth : Nat → Bool) (n : Nat) (front back : List Predicate) :
    holdAll truth n (front ++ back) =
      (holdAll truth n front && holdAll truth (n + (comparisonsEach front).length) back) := by
  induction front generalizing n with
  | nil => simp [holdAll, comparisonsEach]
  | cons p rest ih =>
    rw [List.cons_append, holdAll, ih, holdAll, comparisonsEach, List.length_append, Bool.and_assoc,
      Nat.add_assoc]

/-- Induction over predicates. -/
theorem induction {P : Predicate → Prop}
    (compare : ∀ property operator value negated, P (.compare property operator value negated))
    (within : ∀ property request, P (.within property request))
    (all : ∀ members, (∀ p ∈ members, P p) → P (.all members))
    (any : ∀ members, (∀ p ∈ members, P p) → P (.any members)) (p : Predicate) : P p := by
  refine Predicate.rec (motive_1 := P) (motive_2 := fun members => ∀ p ∈ members, P p) compare
    within all any (by simp) ?_ p
  intro first rest hfirst hrest p hp
  rcases List.mem_cons.1 hp with rfl | hp
  · exact hfirst
  · exact hrest p hp

end Predicate

-- ---------------------------------------------------------------------------
-- The criterion of a predicate
-- ---------------------------------------------------------------------------

namespace Criterion

/-- The same of wanted criteria: comparisons one behind the other. -/
theorem comparisonsEach_append (front back : List Criterion) :
    comparisonsEach (front ++ back) = comparisonsEach front ++ comparisonsEach back := by
  induction front with
  | nil => rfl
  | cons c rest ih => rw [List.cons_append, comparisonsEach, ih, comparisonsEach, List.append_assoc]

/-- And their truth, with the comparisons of the second part numbered behind those of the first. -/
theorem holdAll_append (truth : Nat → Bool) (n : Nat) (front back : List Criterion) :
    holdAll truth n (front ++ back) =
      (holdAll truth n front && holdAll truth (n + (comparisonsEach front).length) back) := by
  induction front generalizing n with
  | nil => simp [holdAll, comparisonsEach]
  | cons c rest ih =>
    rw [List.cons_append, holdAll, ih, holdAll, comparisonsEach, List.length_append, Bool.and_assoc,
      Nat.add_assoc]

end Criterion

/-- A criterion has a comparison, and has the comparisons of a predicate in their order and its
truth. -/
structure Predicate.Became (p : Predicate) (c : Criterion) : Prop where
  comparisons : c.comparisons = p.comparisons
  isEmpty : c.comparisons.isEmpty = false
  holds : ∀ truth n, c.holds truth n = p.holds truth n

namespace Predicate

/-- The members of a group keep their comparisons and their truth together. Since no member is
empty, none of them is passed over by the junction that they become. -/
theorem Became.each {ps : List Predicate} {cs : List Criterion} (h : List.Forall₂ Became ps cs) :
    Criterion.comparisonsEach cs = comparisonsEach ps ∧
      ∀ truth n, Criterion.holdAll truth n cs = holdAll truth n ps ∧
        Criterion.holdAny truth n cs = holdAny truth n ps := by
  induction h with
  | nil => exact ⟨rfl, fun _ _ => ⟨rfl, rfl⟩⟩
  | @cons p c ps cs hfirst hrest ih =>
    obtain ⟨hcomparisons, htruth⟩ := ih
    refine ⟨?_, fun truth n => ⟨?_, ?_⟩⟩
    · rw [Criterion.comparisonsEach, comparisonsEach, hfirst.comparisons, hcomparisons]
    · rw [Criterion.holdAll, holdAll, hfirst.isEmpty, hfirst.holds, hfirst.comparisons,
        (htruth truth _).1, Bool.false_or]
    · rw [Criterion.holdAny, holdAny, hfirst.isEmpty, hfirst.holds, hfirst.comparisons,
        (htruth truth _).2, Bool.not_false, Bool.true_and]

/-- Groups of two members and more are joined as they stand: the junction has the comparisons of all
members, and is true for a conjunction if all are, for a disjunction if one is. -/
theorem Became.join {p : Predicate} {ps : List Predicate} {cs : List Criterion}
    (h : List.Forall₂ Became (p :: ps) cs) (junction : Criterion.Junction) :
    (group junction (p :: ps)).Became (junction.join cs) := by
  obtain ⟨hcomparisons, htruth⟩ := Became.each h
  have hjoined : (junction.join cs).comparisons = Criterion.comparisonsEach cs := by
    cases junction <;> rw [Criterion.Junction.join, Criterion.comparisons]
  refine ⟨?_, ?_, fun truth n => ?_⟩
  · rw [hjoined, hcomparisons, comparisons_group]
  -- a junction with a first member is not empty, whatever the other members are
  · cases h with
    | cons hfirst _ =>
      have hsome : ¬_ = [] := List.isEmpty_eq_false_iff.1 hfirst.isEmpty
      rw [hjoined, Criterion.comparisonsEach, List.isEmpty_eq_false_iff]
      exact List.append_ne_nil_of_left_ne_nil hsome _
  · cases junction with
    | all =>
      rw [Criterion.Junction.join, Criterion.holds, (htruth truth n).1, group, Predicate.holds]
    | any =>
      rw [Criterion.Junction.join, Criterion.holds, (htruth truth n).2, group, Predicate.holds]

/-- A group that is not empty has a criterion with its meaning if its members have. -/
theorem Became.group {p : Predicate} {ps : List Predicate} {cs : List Criterion}
    (h : List.Forall₂ Became (p :: ps) cs) (junction : Criterion.Junction) :
    ∃ c, Criterion.group junction cs = .ok c ∧ (Predicate.group junction (p :: ps)).Became c := by
  have hjoin := Became.join h junction
  cases h with
  | @cons _ c _ cs hfirst hrest =>
    cases hrest with
    | nil =>
      -- a single member stands for its group
      refine ⟨c, rfl, ?_, hfirst.isEmpty, fun truth n => ?_⟩
      · rw [comparisons_group, comparisonsEach, comparisonsEach, List.append_nil,
          hfirst.comparisons]
      · rw [holds_group_singleton, hfirst.holds]
    | cons hsecond hothers => exact ⟨_, rfl, hjoin⟩

/-- A predicate is turned down for an empty group in it, or has a criterion with its meaning. -/
def IsSettled (p : Predicate) : Prop :=
  (p.HasEmptyGroup ∧ p.criterion = reject .emptyGroup) ∨
    ¬p.HasEmptyGroup ∧ ∃ c, p.criterion = .ok c ∧ p.Became c

/-- The members of a group are turned down for an empty group in one of them, or all of them have
criteria, each with the meaning of its member. -/
theorem criteria_became {ps : List Predicate} (h : ∀ p ∈ ps, p.IsSettled) :
    ((∃ p ∈ ps, p.HasEmptyGroup) ∧ criteria ps = reject .emptyGroup) ∨
      (¬∃ p ∈ ps, p.HasEmptyGroup) ∧ ∃ cs, criteria ps = .ok cs ∧ List.Forall₂ Became ps cs := by
  induction ps with
  | nil => exact .inr ⟨by simp, [], rfl, .nil⟩
  | cons p rest ih =>
    rcases h p (List.mem_cons_self ..) with ⟨hempty, hfails⟩ | ⟨hfull, c, hc, hbecame⟩
    · refine .inl ⟨⟨p, List.mem_cons_self .., hempty⟩, ?_⟩
      rw [criteria, hfails]
      rfl
    · rcases ih fun q hq => h q (List.mem_cons_of_mem _ hq) with
        ⟨⟨q, hq, hempty⟩, hfails⟩ | ⟨hrest, cs, hcs, hbecomes⟩
      -- the failure of a later member is that of the whole, even when the first is built
      · refine .inl ⟨⟨q, List.mem_cons_of_mem _ hq, hempty⟩, ?_⟩
        rw [criteria, hc, hfails]
        rfl
      · refine .inr ⟨?_, c :: cs, ?_, .cons hbecame hbecomes⟩
        · rintro ⟨q, hq, hempty⟩
          rcases List.mem_cons.1 hq with rfl | hq
          · exact hfull hempty
          · exact hrest ⟨q, hq, hempty⟩
        · rw [criteria, hc, hcs]
          rfl

/-- A group is settled if its members are: it fails for an empty group somewhere in it, or it
becomes the junction of what they become. -/
theorem isSettled_group {members : List Predicate} (h : ∀ p ∈ members, p.IsSettled)
    (junction : Criterion.Junction) : (group junction members).IsSettled := by
  rw [IsSettled, hasEmptyGroup_group, criterion_group]
  rcases criteria_became h with ⟨hempty, hfails⟩ | ⟨hfull, cs, hcs, hbecomes⟩
  · exact .inl ⟨.inr hempty, by rw [hfails]; rfl⟩
  · rw [hcs]
    cases members with
    | nil =>
      cases hbecomes
      exact .inl ⟨.inl rfl, rfl⟩
    | cons p rest =>
      refine .inr ⟨?_, Became.group hbecomes junction⟩
      rintro (hnil | hempty)
      · cases hnil
      · exact hfull hempty

/-- A predicate has a criterion with its meaning, unless a group in it is empty. -/
theorem criterion_became (p : Predicate) : p.IsSettled := by
  induction p using Predicate.induction with
  | compare property operator value negated =>
    refine .inr ⟨fun hempty => (by cases hempty), _, rfl, ?_, rfl, fun truth n => ?_⟩
    · rw [Criterion.comparisons, comparisons]
    · rw [Criterion.holds, holds]
  | within property request =>
    refine .inr ⟨fun hempty => (by cases hempty), _, rfl, ?_, rfl, fun truth n => ?_⟩
    · rw [Criterion.comparisons, comparisons]
    · rw [Criterion.holds, holds, Bool.xor_false]
  | all members ih => exact isSettled_group ih .all
  | any members ih => exact isSettled_group ih .any

end Predicate

-- ---------------------------------------------------------------------------
-- Calls of a builder
-- ---------------------------------------------------------------------------

namespace Builder

/-- A call of a builder. -/
inductive Call where
  | filter (predicates : List Predicate)
  | neighborhood (edges : List String) (direction : Direction) (depth : UInt32)
  | descendants (edges : List String)
  | ancestors (edges : List String)
  | neighbors (depth : UInt32)
  | select (properties : List String)
  | orderBy (properties : List String) (direction : SortDirection)
  | skip (rows : UInt64)
  | limit (rows : UInt64)
  | history
  | count

/-- The predicate that a call asks for, if it asks for one. -/
def Call.wanted? : Call → Option Predicate
  | .filter predicates => some (.all predicates)
  | _ => none

/-- The builder after a call. -/
def call (b : Builder) : Call → Builder
  | .filter predicates => b.filter predicates
  | .neighborhood edges direction depth => b.neighborhood edges direction depth
  | .descendants edges => b.descendants edges
  | .ancestors edges => b.ancestors edges
  | .neighbors depth => b.neighbors depth
  | .select properties => b.select properties
  | .orderBy properties direction => b.orderBy properties direction
  | .skip rows => b.skip rows
  | .limit rows => b.limit rows
  | .history => b.history
  | .count => b.count

/-- A builder for a target. -/
def ofTarget : WantedTarget → Builder
  | .named className => ofClass className
  | .records ids => ofRecords ids

/-- The builder for a target after calls. -/
def run (target : WantedTarget) (calls : List Call) : Builder := calls.foldl call (ofTarget target)

/-- The predicates that calls ask for, in their order. -/
def wanted (calls : List Call) : List Predicate := calls.filterMap Call.wanted?

end Builder

/-- A request has the comparisons of predicates, in their order, and is true if all of them are. -/
structure Request.Asks (r : Request) (ps : List Predicate) : Prop where
  comparisons : r.comparisons = Predicate.comparisonsEach ps
  isEmpty : ∀ c ∈ r.filters, c.comparisons.isEmpty = false
  holds : ∀ truth, (r.filters.all fun c => c.holds truth 0) = Predicate.holdAll truth 0 ps

/-- One criterion more is one conjunct more, whatever the shape of the earlier ones. A conjunction
takes it as a further member, and anything else becomes the first member of a conjunction of two. -/
theorem Criterion.conjoin_spec {existing : Option Criterion} {c : Criterion}
    (hexisting : ∀ d ∈ existing, d.comparisons.isEmpty = false)
    (hc : c.comparisons.isEmpty = false) :
    (conjoin existing c).comparisons = existing.elim [] Criterion.comparisons ++ c.comparisons ∧
      ∀ truth, (conjoin existing c).holds truth 0 =
        ((existing.all fun d => d.holds truth 0) &&
          c.holds truth (existing.elim [] Criterion.comparisons).length) := by
  have hlast : ∀ truth n, holdAll truth n [c] = c.holds truth n := by
    intro truth n
    rw [holdAll, holdAll, hc, Bool.false_or, Bool.and_true]
  have hpair : ∀ d, d.comparisons.isEmpty = false →
      (Criterion.all [d, c]).comparisons = d.comparisons ++ c.comparisons ∧
        ∀ truth, (Criterion.all [d, c]).holds truth 0 =
          (d.holds truth 0 && c.holds truth d.comparisons.length) := by
    intro d hd
    refine ⟨?_, fun truth => ?_⟩
    · rw [comparisons, comparisonsEach, comparisonsEach, comparisonsEach, List.append_nil]
    · rw [holds, holdAll, hlast, hd, Bool.false_or, Nat.zero_add]
  cases existing with
  | none => exact ⟨rfl, fun truth => by rw [conjoin]; rfl⟩
  | some d =>
    cases d with
    | leaf comparison => exact hpair _ (hexisting _ rfl)
    | any children => exact hpair _ (hexisting _ rfl)
    | all children =>
      -- a conjunction takes one more member, so its truth is that of the longer list
      refine ⟨?_, fun truth => ?_⟩
      · rw [conjoin, comparisons, comparisonsEach_append, comparisonsEach, comparisonsEach,
          List.append_nil, Option.elim_some, comparisons]
      · rw [conjoin, holds, holdAll_append, hlast, Option.all_some, Option.elim_some, holds,
          comparisons, Nat.zero_add]

/-- One predicate more is asked for with the criterion that it became, and the predicates from
before are asked for as they were. -/
theorem Request.Asks.conjoin {r : Request} {ps : List Predicate} {p : Predicate} {c : Criterion}
    (hr : r.Asks ps) (hp : p.Became c) :
    Request.Asks { r with filters := some (Criterion.conjoin r.filters c) } (ps ++ [p]) := by
  -- the criteria before the call keep their comparisons, and those of the call come behind them
  obtain ⟨hcomparisons, hholds⟩ := Criterion.conjoin_spec hr.isEmpty hp.isEmpty
  have hbefore : r.filters.elim [] Criterion.comparisons = Predicate.comparisonsEach ps :=
    hr.comparisons
  rw [hbefore, hp.comparisons] at hcomparisons
  refine ⟨?_, ?_, fun truth => ?_⟩
  · rw [Predicate.comparisonsEach_append, Predicate.comparisonsEach, Predicate.comparisonsEach,
      List.append_nil]
    exact hcomparisons
  · intro d hd
    obtain rfl := Option.some.inj hd
    have hsome : ¬_ = [] := List.isEmpty_eq_false_iff.1 hp.isEmpty
    rw [hcomparisons, ← hp.comparisons, List.isEmpty_eq_false_iff]
    exact List.append_ne_nil_of_right_ne_nil _ hsome
  · rw [Option.all_some, hholds, hr.holds, hbefore, hp.holds, Predicate.holdAll_append,
      Predicate.holdAll, Predicate.holdAll, Bool.and_true, Nat.zero_add]

namespace Builder

/-- What calls have made of a builder: it remembers an empty group, or its request asks for the
predicates of the calls. -/
def Follows (b : Builder) (ps : List Predicate) : Prop :=
  ((∃ p ∈ ps, p.HasEmptyGroup) ∧ b.failure = some (.attribute .emptyGroup)) ∨
    (¬∃ p ∈ ps, p.HasEmptyGroup) ∧ b.failure = none ∧ b.request.Asks ps

/-- A builder that was just started follows no predicate and has not failed. -/
theorem follows_ofTarget (target : WantedTarget) : (ofTarget target).Follows [] := by
  refine .inr ⟨by simp, ?_⟩
  cases target <;> exact ⟨rfl, rfl, by simp [ofTarget, ofClass, ofRecords, Request.ofClass,
    Request.ofRecords, Request.ofTarget], fun _ => rfl⟩

/-- A call with predicates asks for their conjunction, unless the builder has failed. The first
empty group is remembered, and later calls change nothing about it. -/
theorem Follows.filter {b : Builder} {ps : List Predicate} (h : b.Follows ps)
    (predicates : List Predicate) : (b.filter predicates).Follows (ps ++ [.all predicates]) := by
  rcases h with ⟨⟨p, hp, hempty⟩, hfailure⟩ | ⟨hfull, hfailure, hasks⟩
  · refine .inl ⟨⟨p, List.mem_append_left _ hp, hempty⟩, ?_⟩
    rw [Builder.filter, hfailure]
    exact hfailure
  · rcases Predicate.criterion_became (.all predicates) with
      ⟨hempty, hfails⟩ | ⟨hlast, c, hc, hbecame⟩
    · refine .inl ⟨⟨_, List.mem_append_right _ (List.mem_singleton_self _), hempty⟩, ?_⟩
      rw [Builder.filter, hfailure, hfails]
      rfl
    -- nothing has failed so far and the new predicates do not, so they are conjoined
    · have hrequest : b.filter predicates = { b with
          request := { b.request with
            filters := some (Criterion.conjoin b.request.filters c) } } := by
        rw [Builder.filter, hfailure, hc]
      rw [hrequest]
      refine .inr ⟨?_, hfailure, hasks.conjoin hbecame⟩
      rintro ⟨p, hp, hempty⟩
      rcases List.mem_append.1 hp with hp | hp
      · exact hfull ⟨p, hp, hempty⟩
      · rw [List.mem_singleton.1 hp] at hempty
        exact hlast hempty

/-- Other calls leave the criteria as they are. -/
theorem Follows.option {b c : Builder} {ps : List Predicate} (h : b.Follows ps)
    (hfailure : c.failure = b.failure) (hfilters : c.request.filters = b.request.filters) :
    c.Follows ps := by
  rw [Follows, hfailure]
  refine h.imp_right fun ⟨hfull, hnone, hasks⟩ => ⟨hfull, hnone, ?_, ?_, ?_⟩
  · rw [← hasks.comparisons, Request.comparisons, Request.comparisons, hfilters]
  · rw [hfilters]
    exact hasks.isEmpty
  · rw [hfilters]
    exact hasks.holds

/-- A call follows the predicate that it asks for, and the other calls leave the criteria alone. -/
theorem Follows.call {b : Builder} {ps : List Predicate} (h : b.Follows ps) (call : Call) :
    (b.call call).Follows (ps ++ call.wanted?.toList) := by
  cases call with
  | filter predicates => exact h.filter predicates
  | _ =>
    have hnothing : ps ++ Option.toList none = ps := List.append_nil ps
    show Follows _ (ps ++ Option.toList none)
    rw [hnothing]
    exact h.option rfl rfl

/-- After any calls a builder follows the predicates that they asked for, in order. -/
theorem follows_run (target : WantedTarget) (calls : List Call) :
    (run target calls).Follows (wanted calls) := by
  induction calls using List.reverseRecOn with
  | nil => exact follows_ofTarget target
  | append_singleton rest last ih =>
    have hlast : wanted (rest ++ [last]) = wanted rest ++ last.wanted?.toList := by
      rw [wanted, List.filterMap_append, ← wanted]
      cases hwanted : last.wanted? <;> simp [hwanted]
    rw [hlast, run, List.foldl_append]
    exact ih.call last

/-- Finishing a request after any calls fails, and then for this reason, if and only if a call had
an empty group in it. Otherwise the request has the comparisons of all calls in their order, and is
true if the predicates of every call are. -/
theorem build_run (target : WantedTarget) (calls : List Call) :
    ((∃ e, (run target calls).build = .error e) ↔ ∃ p ∈ wanted calls, p.HasEmptyGroup) ∧
      (∀ e, (run target calls).build = .error e → e = .attribute .emptyGroup) ∧
      ∀ r, (run target calls).build = .ok r →
        r.comparisons = Predicate.comparisonsEach (wanted calls) ∧
          ∀ truth, (r.filters.all fun c => c.holds truth 0) =
            Predicate.holdAll truth 0 (wanted calls) := by
  -- the run has met an empty group and remembers the failure, or it has built what was wanted
  rcases follows_run target calls with ⟨hempty, hfailure⟩ | ⟨hfull, hfailure, hasks⟩
  · have hbuild : (run target calls).build = .error (.attribute .emptyGroup) := by
      rw [build, hfailure]
    rw [hbuild]
    refine ⟨⟨fun _ => hempty, fun _ => ⟨_, rfl⟩⟩, fun e he => (Except.error.inj he).symm, ?_⟩
    intro r hr
    cases hr
  · have hbuild : (run target calls).build = .ok (run target calls).request := by
      rw [build, hfailure]
    rw [hbuild]
    refine ⟨⟨?_, fun hempty => absurd hempty hfull⟩, ?_, ?_⟩
    · rintro ⟨e, he⟩
      cases he
    · intro e he
      cases he
    · intro r hr
      obtain rfl := Except.ok.inj hr
      exact ⟨hasks.comparisons, hasks.holds⟩

/-- Two calls for people, with groups inside each other, around a limit. -/
def groupCalls : List Call :=
  [.filter [.any [.equals "name" (.string "Ann"),
      .all [.less "age" (.int 30), .differs "nickname" .null]]],
    .limit 5,
    .filter [.any [.all [.within "friends" (Request.ofClass "Person")]], .greater "age" (.int 5)]]

/-- A call with an empty group, and one more behind it. -/
def emptyGroupCalls : List Call :=
  groupCalls ++ [.filter [.equals "name" .null, .any [.all []]], .filter [.equals "age" (.int 7)]]

/-- A run with a nested group, a negation and an order, and one whose calls hold an empty group in a
group. -/
theorem build_run_groupCalls :
    (∃ r, (run (.named "Person") groupCalls).build = .ok r ∧
      r.comparisons = Predicate.comparisonsEach (wanted groupCalls) ∧
        ∀ truth, (r.filters.all fun c => c.holds truth 0) =
          ((truth 0 || (truth 1 && !truth 2)) && (truth 3 && truth 4))) ∧
      (run (.records ["#1:0"]) emptyGroupCalls).build = .error (.attribute .emptyGroup) := by
  constructor
  · obtain ⟨hcomparisons, htruth⟩ := (build_run (.named "Person") groupCalls).2.2 _ rfl
    refine ⟨_, rfl, hcomparisons, fun truth => ?_⟩
    rw [htruth]
    simp [wanted, groupCalls, List.filterMap_cons, Call.wanted?, Predicate.holdAll, Predicate.holds,
      Predicate.holdAny, Predicate.comparisons, Predicate.comparisonsEach, Predicate.equals,
      Predicate.less, Predicate.differs, Predicate.greater]
  · obtain ⟨hfails, hcause, -⟩ := build_run (.records ["#1:0"]) emptyGroupCalls
    have hinner : (Predicate.any [.all []]).HasEmptyGroup :=
      .insideAny (List.mem_singleton_self _) .all
    have hgroup : (Predicate.all [.equals "name" .null, .any [.all []]]).HasEmptyGroup :=
      .insideAll (List.mem_cons_of_mem _ (List.mem_singleton_self _)) hinner
    have hmember : Predicate.all [.equals "name" .null, .any [.all []]] ∈ wanted emptyGroupCalls :=
      .tail _ (.tail _ (.head _))
    obtain ⟨e, he⟩ := hfails.2 ⟨_, hmember, hgroup⟩
    rw [he, hcause e he]

end Builder

end RecordQuery
