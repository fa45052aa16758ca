import RecordQuery.Proofs.Criteria
import RecordQuery.Proofs.Levels
import RecordQuery.Proofs.Names
import RecordQuery.Proofs.Registration

/-!
# What the checks let through

A comparison is checked against the class whose records are selected at its own level, and a nested
request brings a class of its own. This module says once what is known of each level of an accepted
request, so that statements about names and about operators need not go through the checks again.

* `Comparison.Admitted` — a comparison that passed the checks of its property.
* `Criterion.admitted_of_lower` — every comparison of accepted criteria did.
* `Selection.isAdmitted_of_ofRequest` — and so at every level of an accepted request.
-/

namespace RecordQuery

/-- A class of a schema, by the name that the class has. -/
def Schema.HasClass (schema : Schema) (name : String) (model : ClassModel) : Prop :=
  ∃ key, schema.model? key = some model ∧ model.name = name

/-- The name of a class leads to it. -/
theorem Schema.hasClass_iff {schema : Schema} {name : String} {model : ClassModel} :
    schema.HasClass name model ↔ schema.model? name = some model := by
  constructor
  · rintro ⟨key, hkey, rfl⟩
    rwa [name_of_model? hkey]
  · intro hname
    exact ⟨name, hname, name_of_model? hname⟩

/-- The comparisons of the filter of a selection, not those of the selections nested in it. -/
def Selection.filterComparisons (s : Selection) : List Comparison :=
  s.filter.elim [] Filter.comparisons

variable {schema : Schema} {limits : Limits} {model : ClassModel}

-- ---------------------------------------------------------------------------
-- Comparisons
-- ---------------------------------------------------------------------------

/-- A comparison that passed the checks of its property, which has the given type. -/
inductive Comparison.Admitted (limits : Limits) (model : ClassModel) (type : PropertyType) :
    Comparison → Prop where
  | literal {property operator value negated}
      (htype : model.comparedType property = .ok type)
      (hcheck : checkLiteral limits property type operator value = .ok ()) :
      Admitted limits model type ⟨property, operator, .literal value, negated⟩
  | selection {property operator s negated}
      (htype : model.comparedType property = .ok type)
      (hallowed : operator.allowsSelection type = true) :
      Admitted limits model type ⟨property, operator, .selection s, negated⟩

/-- The type of an admitted comparison is that of its property, or of an attribute. -/
theorem Comparison.Admitted.comparedType {type : PropertyType} {c : Comparison}
    (h : c.Admitted limits model type) : model.comparedType c.property = .ok type := by
  cases h with
  | literal htype _ => exact htype
  | selection htype _ => exact htype

/-- A comparison that was accepted is admitted under the type of its property: a literal because it
was checked, a nested request because its operator allows selections. -/
theorem WantedComparison.admitted_of_lower {wanted : WantedComparison} {c : Comparison}
    (h : wanted.lower schema limits model = .ok c) : ∃ type, c.Admitted limits model type := by
  obtain ⟨property, operator, operand, negated⟩ := wanted
  rw [lower] at h
  cases operand with
  | literal value =>
    rw [WantedOperand.lower] at h
    obtain ⟨type, htype, hcheck, rfl⟩ := Comparison.ofLiteral_eq_ok.1 h
    exact ⟨type, .literal htype hcheck⟩
  | request r =>
    rw [WantedOperand.lower] at h
    split at h
    · cases h
    · obtain ⟨type, htype, hallowed, rfl⟩ := Comparison.ofSelection_eq_ok.1 h
      exact ⟨type, .selection htype hallowed⟩

/-- What was checked one by one is admitted. -/
theorem Comparison.admitted_of_forall₂ {wanted : List WantedComparison} {cs : List Comparison}
    (h : List.Forall₂ (fun w c => WantedComparison.lower schema limits model w = .ok c) wanted cs) :
    ∀ c ∈ cs, ∃ type, c.Admitted limits model type := by
  intro c hc
  obtain ⟨w, -, hlower⟩ := exists_of_forall₂_of_mem h hc
  exact WantedComparison.admitted_of_lower hlower

/-- The comparisons of accepted criteria are admitted, each under its type. -/
theorem Criterion.admitted_of_lower {c : Criterion} {f : Filter}
    (h : c.lower schema limits model = .ok f) :
    ∀ d ∈ f.comparisons, ∃ type, d.Admitted limits model type :=
  Comparison.admitted_of_forall₂ (became_of_lower h).comparisons

-- ---------------------------------------------------------------------------
-- Levels
-- ---------------------------------------------------------------------------

namespace Selection

/-- A selection as the checks leave it: of records alone, or of a class of the schema along edges of
the schema, with comparisons that were checked against that class. -/
structure IsAdmitted (schema : Schema) (limits : Limits) (s : Selection) : Prop where
  records : ∀ ids, s.target = .records ids → s.filter = none ∧ s.traversal = none
  comparisons : ∀ name, s.target = .named name → ∃ model, schema.HasClass name model ∧
    ∀ c ∈ s.filterComparisons, ∃ type, c.Admitted limits model type
  edges : ∀ t ∈ s.traversal, ∀ edge ∈ t.edges, (schema.model? edge).isSome

/-- An accepted request has an admitted selection. One for explicit records has no filter and no
traversal, and one for a class has only comparisons that were checked against it. -/
theorem isAdmitted_of_accepted {r : Request} {s : Selection}
    (h : ofRequest schema limits r = .ok s) : s.IsAdmitted schema limits := by
  have hedges : ∀ t ∈ s.traversal, ∀ edge ∈ t.edges, (schema.model? edge).isSome :=
    fun t ht => (Request.edges_of_traversal (traversal_of_ofRequest h ht)).2
  cases htarget : r.target with
  | records texts =>
    obtain ⟨-, -, -, ids, -, rfl⟩ := (ofRequest_records_eq_ok htarget).1 h
    -- an explicit list names no class and compares nothing
    refine ⟨fun _ _ => ⟨rfl, rfl⟩, fun name hname => ?_, hedges⟩
    cases hname
  | named className =>
    obtain ⟨-, model, hmodel, filter, hfilter, traversal, -, rfl⟩ :=
      (ofRequest_named_eq_ok htarget).1 h
    refine ⟨fun ids hids => ?_, fun name hname => ?_, hedges⟩
    · cases hids
    · have hname : model.name = name := Target.named.inj hname
      have hlowered := (Request.keepFilter_of_lower hfilter).1
      exact ⟨model, ⟨className, hmodel, hname⟩, Comparison.admitted_of_forall₂ hlowered⟩

/-- Every level of an accepted request is as the checks leave it. -/
theorem isAdmitted_of_ofRequest {r : Request} {s : Selection}
    (h : ofRequest schema limits r = .ok s) :
    ∀ level ∈ s.levels, level.IsAdmitted schema limits := by
  intro level hlevel
  obtain ⟨request, -, hrequest⟩ := exists_of_forall₂_of_mem (levels_of_ofRequest h) hlevel
  exact isAdmitted_of_accepted hrequest

/-- So is every selection nested in accepted criteria. -/
theorem isAdmitted_of_lower {c : Criterion} {f : Filter}
    (h : c.lower schema limits model = .ok f) :
    ∀ level ∈ f.levels, level.IsAdmitted schema limits := by
  intro level hlevel
  have hlevels := levels_of_checks.1 c model f h
  obtain ⟨request, -, hrequest⟩ := exists_of_forall₂_of_mem hlevels hlevel
  exact isAdmitted_of_accepted hrequest

end Selection

end RecordQuery
