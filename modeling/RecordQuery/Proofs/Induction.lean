import RecordQuery.Request.Basic

/-!
# Induction over filters and requests

A filter holds comparisons, a comparison may hold a selection, and a selection holds a filter again;
criteria and requests are nested the same way. Every statement about them is a pair of statements,
one for each of the two types, proved together. The principles of this module say once which cases
such a pair has:

* `Selection.induction` — for filters and selections. The case of a selection may use the statement
  about its *effective* filter, which is not a part of it but has the comparisons of one.
* `Filter.induction` — for filters alone.
* `Filter.Collects` — what lists of things found in a filter have in common: those of a junction are
  those of its members.
* `Request.induction` — for criteria and requests.
-/

namespace RecordQuery

-- ---------------------------------------------------------------------------
-- Filters and selections
-- ---------------------------------------------------------------------------

section Filters

variable {P : Filter → Prop}

/-- What conjunctions inherit from their members, one more conjunct keeps. So whatever is proved of
all filters holds for the effective filter of a selection as well. -/
theorem Filter.andAlso_of_all (all : ∀ children, (∀ child ∈ children, P child) → P (.all children))
    {f g : Filter} (hf : P f) (hmembers : ∀ children, f = .all children → ∀ c ∈ children, P c)
    (hg : P g) : P (f.andAlso g) := by
  have hpair : P (.all [f, g]) := by
    apply all
    intro child hchild
    have hcases : child = f ∨ child = g := by simpa using hchild
    rcases hcases with rfl | rfl
    · exact hf
    · exact hg
  -- a conjunction takes the new member in, anything else stands beside it in a conjunction of two
  cases f with
  | leaf comparison => exact hpair
  | any children => exact hpair
  | all children =>
    apply all
    intro child hchild
    rcases List.mem_append.1 hchild with hchild | hchild
    · exact hmembers children rfl child hchild
    · rw [List.mem_singleton.1 hchild]
      exact hg

/-- Induction over filters and selections at once: a filter may hold a selection, and a selection
has a filter. For a selection both that filter and the effective one are given. -/
theorem Selection.induction {Q : Selection → Prop}
    (literal : ∀ property operator value negated,
      P (.leaf ⟨property, operator, .literal value, negated⟩))
    (nested : ∀ property operator selection negated, Q selection →
      P (.leaf ⟨property, operator, .selection selection, negated⟩))
    (all : ∀ children, (∀ child ∈ children, P child) → P (.all children))
    (any : ∀ children, (∀ child ∈ children, P child) → P (.any children))
    (selection : ∀ s : Selection, (∀ f ∈ s.filter, P f) → (∀ f ∈ s.effectiveFilter, P f) → Q s) :
    (∀ f, P f) ∧ ∀ s, Q s := by
  -- a conjunction also remembers what holds of its members, for the effective filter
  let R : Filter → Prop := fun f => P f ∧ ∀ children, f = .all children → ∀ c ∈ children, P c
  have hselection : ∀ target filter history traversal, (∀ f ∈ filter, R f) →
      Q ⟨target, filter, history, traversal⟩ := by
    intro target filter history traversal hfilter
    apply selection
    · exact fun f hf => (hfilter f hf).1
    · intro f hf
      have hactive : P Filter.active := literal ..
      cases filter with
      | none =>
        cases history with
        | true => simp [effectiveFilter] at hf
        | false =>
          obtain rfl : Filter.active = f := by simpa [effectiveFilter] using hf
          exact hactive
      | some g =>
        obtain ⟨hg, hmembers⟩ := hfilter g rfl
        cases history with
        | true =>
          obtain rfl : g = f := by simpa [effectiveFilter] using hf
          exact hg
        | false =>
          obtain rfl : g.andAlso Filter.active = f := by simpa [effectiveFilter] using hf
          exact Filter.andAlso_of_all all hg hmembers hactive
  have hfilters : ∀ f, R f := by
    refine @Filter.rec R
      (fun operand => ∀ property operator negated, P (.leaf ⟨property, operator, operand, negated⟩))
      (fun comparison => P (.leaf comparison)) Q (fun fs => ∀ f ∈ fs, R f)
      (fun filter => ∀ f ∈ filter, R f) ?_ ?_ ?_ ?_ ?_ ?_ ?_ ?_ ?_ ?_ ?_
    · intro comparison h
      exact ⟨h, fun children heq => by cases heq⟩
    · intro children h
      refine ⟨all children fun child hchild => (h child hchild).1, fun members heq c hc => ?_⟩
      cases heq
      exact (h c hc).1
    · intro children h
      exact ⟨any children fun child hchild => (h child hchild).1, fun members heq => by cases heq⟩
    · exact fun value property operator negated => literal property operator value negated
    · exact fun s hs property operator negated => nested property operator s negated hs
    · exact fun property operator operand negated h => h property operator negated
    · exact hselection
    · simp
    · intro first rest hfirst hrest f hf
      rcases List.mem_cons.1 hf with rfl | hf
      · exact hfirst
      · exact hrest f hf
    · simp
    · intro f hf g hg
      obtain rfl : f = g := by simpa using hg
      exact hf
  refine ⟨fun f => (hfilters f).1, fun s => ?_⟩
  obtain ⟨target, filter, history, traversal⟩ := s
  exact hselection target filter history traversal fun f _ => hfilters f

/-- Induction over filters that does not look into nested selections. -/
theorem Filter.induction (leaf : ∀ comparison, P (.leaf comparison))
    (all : ∀ children, (∀ child ∈ children, P child) → P (.all children))
    (any : ∀ children, (∀ child ∈ children, P child) → P (.any children)) (f : Filter) : P f :=
  (Selection.induction (Q := fun _ => True) (fun _ _ _ _ => leaf _) (fun _ _ _ _ _ => leaf _) all
    any fun _ _ _ => trivial).1 f

/-- What is found in a junction is what is found in its members, one after another. -/
structure Filter.Collects {α : Type} (F : Filter → List α) : Prop where
  all : ∀ children, F (.all children) = children.flatMap F
  any : ∀ children, F (.any children) = children.flatMap F

/-- Where there is no comparison, nothing is found: junctions add nothing of their own to what their
members list. -/
theorem Filter.Collects.eq_nil_of_isEmpty {α : Type} {F : Filter → List α} (h : Collects F)
    {f : Filter} (hempty : f.isEmpty = true) : F f = [] := by
  induction f using Filter.induction with
  | leaf comparison =>
    rw [isEmpty] at hempty
    cases hempty
  | all children ih =>
    rw [isEmpty, areEmpty_eq_all, List.all_eq_true] at hempty
    rw [h.all, List.flatMap_eq_nil_iff]
    exact fun child hchild => ih child hchild (hempty child hchild)
  | any children ih =>
    rw [isEmpty, areEmpty_eq_all, List.all_eq_true] at hempty
    rw [h.any, List.flatMap_eq_nil_iff]
    exact fun child hchild => ih child hchild (hempty child hchild)

end Filters

-- ---------------------------------------------------------------------------
-- Criteria and requests
-- ---------------------------------------------------------------------------

/-- Induction over criteria and requests at once: a criterion may hold a request, and a request has
criteria. -/
theorem Request.induction {P : Criterion → Prop} {Q : Request → Prop}
    (literal : ∀ property operator value negated,
      P (.leaf ⟨property, operator, .literal value, negated⟩))
    (nested : ∀ property operator request negated, Q request →
      P (.leaf ⟨property, operator, .request request, negated⟩))
    (all : ∀ children, (∀ child ∈ children, P child) → P (.all children))
    (any : ∀ children, (∀ child ∈ children, P child) → P (.any children))
    (request : ∀ r : Request, (∀ c ∈ r.filters, P c) → Q r) :
    (∀ c, P c) ∧ ∀ r, Q r := by
  have hcriteria : ∀ c, P c := by
    -- one motive for each of the types that the recursor goes through
    refine @Criterion.rec P
      (fun operand => ∀ property operator negated, P (.leaf ⟨property, operator, operand, negated⟩))
      (fun comparison => P (.leaf comparison)) Q (fun cs => ∀ c ∈ cs, P c)
      (fun filters => ∀ c ∈ filters, P c) ?_ ?_ ?_ ?_ ?_ ?_ ?_ ?_ ?_ ?_ ?_
    · exact fun comparison h => h
    · exact all
    · exact any
    · exact fun value property operator negated => literal property operator value negated
    · exact fun r hr property operator negated => nested property operator r negated hr
    · exact fun property operator operand negated h => h property operator negated
    · intro target filters neighbors style edges direction depth returnProperties orderBy
        orderByDirection skip limit history count hfilters
      exact request _ hfilters
    · simp
    · intro first rest hfirst hrest c hc
      rcases List.mem_cons.1 hc with rfl | hc
      · exact hfirst
      · exact hrest c hc
    · simp
    · intro c hc d hd
      obtain rfl : c = d := by simpa using hd
      exact hc
  exact ⟨hcriteria, fun r => request r fun c _ => hcriteria c⟩

end RecordQuery
