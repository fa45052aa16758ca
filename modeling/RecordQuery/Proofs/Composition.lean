import RecordQuery.Proofs.Draft
import RecordQuery.Proofs.Names

/-!
# Properties of drafts that pass from the parts to the whole

The draft of a selection is put together from few kinds of parts: the texts around a name, around a
literal and around a condition. A property of drafts that passes over each kind holds of the drafts
of all filters and selections.

* `Draft.Composes` — the kinds of parts, as the cases to be shown of a property.
* `Draft.Composes.selection` — what follows from them.
-/

namespace RecordQuery

namespace Draft

/-- A property of drafts passes from the parts to the whole if the names in them have the property
`N`. -/
structure Composes (N : String → Prop) (P : Draft → Prop) : Prop where
  deletionTime : N deletionTime
  absence : ∀ property, N property → P [.text (absenceText property)]
  parameter : ∀ property (operator : Operator) value, N property →
    P [.text (property ++ " " ++ operator.keyword ++ " "), .literal value]
  nested : ∀ property (operator : Operator) inner, N property → P inner →
    P (.text (property ++ " " ++ operator.selectionKeyword ++ " (") :: inner ++ [.text ")"])
  negation : ∀ body, P body → P (.text "NOT (" :: body ++ [.text ")"])
  junction : ∀ joiner ∈ ["AND", "OR"], ∀ drafts, (∀ d ∈ drafts, P d) →
    P (.text "(" :: [Fragment.text (" " ++ joiner ++ " ")].intercalate drafts ++ [.text ")"])
  records : ∀ ids, P [.text (recordsText ids)]
  named : ∀ traversal className condition grouped, N className →
    (∀ edge ∈ Traversal.names traversal, N edge) → (∀ d ∈ condition, P d) →
    P (Traversal.draft traversal className condition grouped)

namespace Composes

variable {N : String → Prop} {P : Draft → Prop}

/-- The comparison under a negation, or as it is. -/
theorem negated (h : Composes N P) (negated : Bool) {body : Draft} (hbody : P body) :
    P (Draft.negation negated body) := by
  cases negated with
  | false => exact hbody
  | true => exact h.negation body hbody

/-- A junction of drafts of the kind is of the kind: it is empty, one of them, or the joined texts
in parentheses. -/
theorem joined (h : Composes N P) {joiner : String} (hjoiner : joiner ∈ ["AND", "OR"])
    {drafts : List Draft} (hdrafts : ∀ d ∈ drafts, P d) :
    ∀ d ∈ Draft.junction joiner drafts, P d := by
  intro d hd
  match drafts with
  | [] => cases hd
  | [only] =>
    obtain rfl : only = d := by simpa [Draft.junction] using hd
    exact hdrafts only (List.mem_cons_self ..)
  | first :: second :: rest =>
    obtain rfl := Option.some.inj hd
    exact h.junction joiner hjoiner _ hdrafts

/-- What is composed of drafts of a kind is of that kind: filters and selections all of whose names
are admitted. The induction is the mutual one on filters and selections, and a selection asks for
its effective filter, which may have one name more than its own filter. -/
theorem filter_and_selection (h : Composes N P) :
    (∀ f : Filter, (∀ name ∈ f.names, N name) → ∀ d ∈ f.draft, P d) ∧
      ∀ s : Selection, (∀ name ∈ s.names, N name) → P s.draft := by
  refine Selection.induction ?_ ?_ ?_ ?_ ?_
  · intro property operator value negated hnames d hd
    rw [Filter.names_literal] at hnames
    have hproperty : N property := hnames property (List.mem_singleton_self _)
    rw [Filter.draft, Comparison.draft, Operand.draft] at hd
    obtain rfl := Option.some.inj hd
    apply h.negated
    split
    · exact h.absence property hproperty
    · exact h.parameter property operator value hproperty
  · intro property operator s negated ih hnames d hd
    rw [Filter.names_selection] at hnames
    have hproperty : N property := hnames property (List.mem_cons_self ..)
    rw [Filter.draft, Comparison.draft, Operand.draft] at hd
    obtain rfl := Option.some.inj hd
    apply h.negated
    apply h.nested property operator _ hproperty
    exact ih fun name hname => hnames name (List.mem_cons_of_mem _ hname)
  · intro children ih hnames
    rw [Filter.draft]
    apply h.joined (by simp)
    intro d hd
    obtain ⟨f, hf, hdraft⟩ := Filter.mem_draftEach.1 hd
    have hbelow : ∀ name ∈ f.names, N name := fun name hname =>
      hnames name (Filter.mem_names_all.2 ⟨f, hf, hname⟩)
    exact ih f hf hbelow d hdraft
  · intro children ih hnames
    rw [Filter.draft]
    apply h.joined (by simp)
    intro d hd
    obtain ⟨f, hf, hdraft⟩ := Filter.mem_draftEach.1 hd
    have hbelow : ∀ name ∈ f.names, N name := fun name hname =>
      hnames name (Filter.mem_names_any.2 ⟨f, hf, hname⟩)
    exact ih f hf hbelow d hdraft
  · intro s _ heffective hnames
    -- the one name beside those of the filter is that of the deletion time
    have hfilter : ∀ f ∈ s.effectiveFilter, ∀ d ∈ f.draft, P d := by
      intro f hf
      refine heffective f hf fun name hname => ?_
      rcases Selection.mem_names_effectiveFilter hf hname with hname | rfl
      · exact hnames name hname
      · exact h.deletionTime
    obtain ⟨target, filter, history, traversal⟩ := s
    cases target with
    | records ids =>
      rw [Selection.draft]
      exact h.records ids
    | named className =>
      rw [Selection.draft_named]
      apply h.named
      · exact hnames className (Selection.mem_names.2 (.inl (List.mem_singleton_self _)))
      · exact fun edge hedge => hnames edge (Selection.mem_names.2 (.inr (.inl hedge)))
      · intro condition hcondition
        obtain ⟨f, hf, hdraft⟩ := Option.bind_eq_some_iff.1 hcondition
        exact hfilter f hf condition hdraft

/-- The drafts of selections with admitted names are of the kind. -/
theorem selection (h : Composes N P) {s : Selection} (hnames : ∀ name ∈ s.names, N name) :
    P s.draft :=
  h.filter_and_selection.2 s hnames

end Composes

end Draft

end RecordQuery
