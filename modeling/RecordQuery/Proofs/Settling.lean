import RecordQuery.Proofs.Ancestry
import RecordQuery.Proofs.Inheritance

/-!
# Registering declarations round after round

`Schema.settle` registers the declarations whose parents are known, and goes on with the others.
What it has registered at any time is a *part* of the schema in the making: some of the classes,
each made once and for all from the parents that its declaration names. A round adds to the part
what is ready, and the last part is one that no further declaration can join.

* `Schema.IsPart.put` — registering one more declaration.
* `Schema.exists_registerAll`, `Schema.exists_round` — registering a round of them.
* `Schema.settle_missing` — the rounds, up to the last.
-/

namespace RecordQuery

namespace Schema

-- ---------------------------------------------------------------------------
-- Parts of a schema
-- ---------------------------------------------------------------------------

/-- A schema of some of the declarations, each registered below the parents that it names. -/
structure IsPart (decls : List ClassDecl) (schema : Schema) : Prop where
  ordered : Dictionary.Ordered schema.classes
  resolves : ∀ name, (schema.model? name).isSome → Resolves decls name
  flattened : ∀ decl ∈ decls, ∀ model, schema.model? decl.name = some model →
    ∃ parents, schema.HasModels decl.parents parents ∧ model = decl.modelFrom parents

variable {decls others : List ClassDecl} {schema next : Schema} {decl : ClassDecl}
  {parents : List ClassModel}

/-- Before the first registration no declaration is taken in. -/
theorem isPart_empty : IsPart decls empty where
  ordered := Dictionary.ordered_nil
  resolves _ h := by cases h
  flattened _ _ _ h := by cases h

/-- A part of declarations is one of any others with the same members. -/
theorem IsPart.of_subset (h : IsPart decls schema) (hto : decls ⊆ others) (hback : others ⊆ decls) :
    IsPart others schema where
  ordered := h.ordered
  resolves name hname := (h.resolves name hname).of_subset hto
  flattened decl hmem := h.flattened decl (hback hmem)

/-- Classes stand under their names. -/
theorem IsPart.name_eq {name : String} {model : ClassModel} (h : IsPart decls schema)
    (hmodel : schema.model? name = some model) : model.name = name := by
  obtain ⟨decl, hmem, rfl⟩ := (h.resolves name (by rw [hmodel]; rfl)).isDeclared
  obtain ⟨parents, -, rfl⟩ := h.flattened decl hmem model hmodel
  rfl

/-- The properties of a class are in the order of their names. -/
theorem IsPart.ordered_properties {name : String} {model : ClassModel} (h : IsPart decls schema)
    (hmodel : schema.model? name = some model) : Dictionary.Ordered model.properties := by
  obtain ⟨decl, hmem, rfl⟩ := (h.resolves name (by rw [hmodel]; rfl)).isDeclared
  obtain ⟨parents, -, rfl⟩ := h.flattened decl hmem model hmodel
  exact ClassDecl.ordered_properties_modelFrom

/-- The declarations that are not registered. -/
def missing (schema : Schema) (decls : List ClassDecl) : List ClassDecl :=
  decls.filter fun decl => (schema.model? decl.name).isNone

/-- A part that no further declaration can join. -/
structure IsSettled (decls : List ClassDecl) (schema : Schema) : Prop extends
    IsPart decls schema where
  full : ∀ decl ∈ decls, (∀ parent ∈ decl.parents, (schema.model? parent).isSome) →
    (schema.model? decl.name).isSome

theorem mem_missing :
    decl ∈ schema.missing decls ↔ decl ∈ decls ∧ schema.model? decl.name = none := by
  simp [missing]

theorem isReady_iff :
    schema.isReady decl = true ↔ ∀ parent ∈ decl.parents, (schema.model? parent).isSome := by
  simp [isReady, Dictionary.contains, model?]

/-- A new class leaves the classes of other names alone. -/
theorem HasModels.put {names : List String} {models : List ClassModel}
    (h : schema.HasModels names models) (hnew : schema.model? decl.name = none) :
    (schema.put (decl.modelFrom parents)).HasModels names models := by
  refine h.imp fun name model hmodel => ?_
  have hne : name ≠ decl.name := by
    rintro rfl
    rw [hnew] at hmodel
    cases hmodel
  rw [model?_put_of_ne hne, hmodel]

/-- A name with a class is registered. -/
theorem HasModels.isSome {names : List String} {models : List ClassModel}
    (h : schema.HasModels names models) {name : String} (hname : name ∈ names) :
    (schema.model? name).isSome := by
  induction h with
  | nil => cases hname
  | cons hmodel _ ih =>
    rcases List.mem_cons.1 hname with rfl | hrest
    · rw [hmodel]
      rfl
    · exact ih hrest

/-- The classes of names depend on the names alone. -/
theorem HasModels.eq_of_forall {names : List String} {models more : List ClassModel}
    (h : schema.HasModels names models) (hmore : next.HasModels names more)
    (heq : ∀ name ∈ names, schema.model? name = next.model? name) : models = more := by
  induction h generalizing more with
  | nil => cases hmore; rfl
  | @cons name model rest models hmodel _ ih =>
    obtain ⟨m, ms, hm, hms, rfl⟩ := List.forall₂_cons_left_iff.1 hmore
    rw [heq name (List.mem_cons_self ..), hm] at hmodel
    cases hmodel
    rw [ih hms fun name hname => heq name (List.mem_cons_of_mem _ hname)]

section Distinct

variable (hnames : (decls.map (·.name)).Nodup)
include hnames

/-- One more declaration is registered below parents that are there, and the schema is still part of
the one that is to become of all. -/
theorem IsPart.put (h : IsPart decls schema) (hmem : decl ∈ decls)
    (hnew : schema.model? decl.name = none) (hparents : schema.HasModels decl.parents parents) :
    IsPart decls (schema.put (decl.modelFrom parents)) := by
  constructor
  · exact Dictionary.ordered_insert h.ordered
  · intro name hname
    by_cases heq : name = decl.name
    · subst heq
      exact .intro hmem fun parent hparent => h.resolves parent (hparents.isSome hparent)
    · rw [model?_put_of_ne heq] at hname
      exact h.resolves name hname
  -- a new class is none of the parents that were taken in before, as its name was free
  · intro other hother model hmodel
    by_cases heq : other.name = decl.name
    · obtain rfl : other = decl := List.inj_on_of_nodup_map hnames hother hmem heq
      rw [model?_put_modelFrom] at hmodel
      cases hmodel
      exact ⟨parents, hparents.put hnew, rfl⟩
    · rw [model?_put_of_ne heq] at hmodel
      obtain ⟨theirs, htheirs, rfl⟩ := h.flattened other hother model hmodel
      exact ⟨theirs, htheirs.put hnew, rfl⟩

-- ---------------------------------------------------------------------------
-- One round
-- ---------------------------------------------------------------------------

/-- Distinct new declarations whose parents are known are registered, and nothing else is. They may
come in any order, for none of them waits for another. -/
theorem exists_registerAll (h : IsPart decls schema) {batch : List ClassDecl}
    (hsub : batch.Sublist decls) (hnew : ∀ decl ∈ batch, schema.model? decl.name = none)
    (hready : ∀ decl ∈ batch, ∀ parent ∈ decl.parents, (schema.model? parent).isSome) :
    ∃ next, schema.registerAll batch = .ok next ∧ IsPart decls next ∧
      ∀ name, (next.model? name).isSome ↔
        (schema.model? name).isSome ∨ ∃ decl ∈ batch, decl.name = name := by
  -- the first of the batch joins, and the rest are as new and as ready as before
  induction batch generalizing schema with
  | nil => exact ⟨schema, rfl, h, by simp⟩
  | cons decl rest ih =>
    have hmem : decl ∈ decls := hsub.subset (List.mem_cons_self ..)
    have hdistinct : (decl :: rest).Pairwise fun d e => d.name ≠ e.name :=
      List.pairwise_map.1 (hnames.sublist (hsub.map _))
    obtain ⟨parents, hparents⟩ := HasModels.of_forall (hready decl (List.mem_cons_self ..))
    have hregister := register_eq_ok.2 ⟨parents, hparents, rfl⟩
    have hpart := h.put hnames hmem (hnew decl (List.mem_cons_self ..)) hparents
    have hkept : ∀ {name}, ((schema.put (decl.modelFrom parents)).model? name).isSome ↔
        (schema.model? name).isSome ∨ decl.name = name := by
      intro name
      rw [model?_put, ClassDecl.name_modelFrom]
      split <;> simp [*]
    obtain ⟨next, hnext, hnextPart, hknown⟩ := ih hpart (List.sublist_of_cons_sublist hsub)
      (fun other hother => by
        rw [model?_put_of_ne ((List.pairwise_cons.1 hdistinct).1 other hother).symm]
        exact hnew other (List.mem_cons_of_mem _ hother))
      (fun other hother parent hparent =>
        hkept.2 (.inl (hready other (List.mem_cons_of_mem _ hother) parent hparent)))
    refine ⟨next, ?_, hnextPart, fun name => ?_⟩
    · rw [registerAll, hregister]
      exact hnext
    · rw [hknown, hkept, or_assoc, List.exists_mem_cons_iff]

/-- A round registers what is ready and leaves the rest. What it leaves is what is still missing, so
the rounds go on from there. -/
theorem exists_round (h : IsPart decls schema) :
    ∃ next, schema.registerAll (schema.ready (schema.missing decls)) = .ok next ∧
      IsPart decls next ∧ next.missing decls = schema.blocked (schema.missing decls) := by
  have hready : ∀ decl, decl ∈ schema.ready (schema.missing decls) ↔
      (decl ∈ decls ∧ schema.model? decl.name = none) ∧ schema.isReady decl = true := by
    intro decl
    rw [ready, List.mem_filter, mem_missing]
  have hsub : (schema.ready (schema.missing decls)).Sublist decls :=
    List.filter_sublist.trans List.filter_sublist
  obtain ⟨next, hnext, hpart, hknown⟩ := exists_registerAll hnames h hsub
    (fun decl hdecl => ((hready decl).1 hdecl).1.2)
    (fun decl hdecl => isReady_iff.1 ((hready decl).1 hdecl).2)
  refine ⟨next, hnext, hpart, ?_⟩
  rw [blocked, missing, missing, List.filter_filter]
  refine List.filter_congr fun decl hmem => ?_
  -- no other declaration of the round can have brought in this name
  have hjoined : (next.model? decl.name).isSome ↔
      (schema.model? decl.name).isSome ∨ schema.isReady decl = true := by
    rw [hknown]
    constructor
    · rintro (hold | ⟨other, hother, heq⟩)
      · exact .inl hold
      · obtain ⟨⟨hotherMem, -⟩, hisReady⟩ := (hready other).1 hother
        rw [← List.inj_on_of_nodup_map hnames hotherMem hmem heq]
        exact .inr hisReady
    · rintro (hold | hisReady)
      · exact .inl hold
      · cases hold : schema.model? decl.name with
        | none => exact .inr ⟨decl, (hready decl).2 ⟨⟨hmem, hold⟩, hisReady⟩, rfl⟩
        | some model => exact .inl rfl
  rw [← Option.not_isSome, ← Option.not_isSome, Bool.eq_iff_iff]
  simp only [Bool.not_eq_true', Bool.and_eq_true, ← Bool.not_eq_true, hjoined, not_or, and_comm]

-- ---------------------------------------------------------------------------
-- All rounds
-- ---------------------------------------------------------------------------

/-- The rounds end with a part that no further declaration can join, and with the declarations
that it lacks. -/
theorem settle_missing (h : IsPart decls schema) :
    ∃ last, IsSettled decls last ∧
      schema.settle (schema.missing decls) =
        if last.missing decls = [] then .ok last
        else reject (.unresolvedParents ((last.missing decls).map (·.name))) := by
  generalize hpending : schema.missing decls = pending
  fun_induction settle schema pending with
  | case1 schema pending hempty =>
    rw [List.isEmpty_iff.1 hempty] at hpending
    refine ⟨schema, ⟨h, fun decl hmem _ => ?_⟩, by rw [if_pos hpending]⟩
    have hnot : decl ∉ schema.missing decls := by simp [hpending]
    rw [mem_missing, ← Option.not_isSome_iff_eq_none] at hnot
    exact not_not.1 fun hnew => hnot ⟨hmem, hnew⟩
  | case2 schema pending hne e herror =>
    obtain ⟨next, hnext, -, -⟩ := exists_round hnames h
    rw [hpending, herror] at hnext
    cases hnext
  | case3 schema pending hne next hnext hless ih =>
    obtain ⟨_, hround, hpart, hleft⟩ := exists_round hnames h
    rw [hpending] at hround hleft
    rw [hnext] at hround
    cases hround
    exact ih hpart hleft
  | case4 schema pending hne next hnext hstuck =>
    -- no declaration was ready, or the round would have left fewer
    have hblocked : schema.blocked pending = pending := by
      have hle : (schema.blocked pending).length ≤ pending.length := List.length_filter_le ..
      have hlength : (schema.blocked pending).length = pending.length := by omega
      exact List.filter_sublist.eq_of_length hlength
    refine ⟨schema, ⟨h, fun decl hmem hready => ?_⟩, ?_⟩
    · by_contra hnew
      rw [Option.not_isSome_iff_eq_none] at hnew
      have hdecl : decl ∈ schema.blocked pending := by
        rw [hblocked, ← hpending]
        exact mem_missing.2 ⟨hmem, hnew⟩
      have hnot := (List.mem_filter.1 hdecl).2
      rw [isReady_iff.2 hready] at hnot
      cases hnot
    · rw [hpending, hblocked, if_neg]
      rintro rfl
      exact hne rfl

end Distinct

end Schema

end RecordQuery
