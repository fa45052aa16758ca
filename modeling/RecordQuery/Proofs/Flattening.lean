import RecordQuery.Proofs.Settling

/-!
# Schemas of declarations in any order

The classes that are registered when no more can be are those that resolve, and going up from a
class one sees that they could not have come out otherwise. So the schema of a list of declarations
is determined by what they say, and not by their order.

* `Schema.IsSettled.unique` — there is one schema that no further declaration can join.
* `Schema.ofDeclarations_eq_ok` — what the schema of declarations is.
* `Schema.exists_ofDeclarations_iff`, `Schema.eq_of_ofDeclarations_eq_error` — when there is one,
  and what a failure names.
* `Schema.IsPart.isFlattened` — what a class of a schema has.
* `Schema.ofDeclarations_flattens` — all of this together.
-/

namespace RecordQuery

namespace Schema

variable {decls others : List ClassDecl} {schema next : Schema} {decl : ClassDecl}

-- ---------------------------------------------------------------------------
-- The finished schema
-- ---------------------------------------------------------------------------

/-- The classes of a full part are those that resolve. -/
theorem IsSettled.isSome_iff {name : String} (h : IsSettled decls schema) :
    (schema.model? name).isSome ↔ Resolves decls name := by
  refine ⟨h.resolves name, fun hname => ?_⟩
  induction hname with
  | intro hmem _ ih => exact h.full _ hmem ih

theorem IsSettled.isNone_iff {name : String} (h : IsSettled decls schema) :
    schema.model? name = none ↔ ¬ Resolves decls name := by
  rw [← h.isSome_iff, Option.not_isSome_iff_eq_none]

/-- Two full parts have the same classes: going up from a class, its parents are the same. -/
theorem IsSettled.model?_eq {name : String} (h : IsSettled decls schema)
    (hnext : IsSettled decls next) : schema.model? name = next.model? name := by
  by_cases hname : Resolves decls name
  · induction hname with
    | @intro decl hmem hparents ih =>
      have hresolves : Resolves decls decl.name := .intro hmem hparents
      obtain ⟨model, hmodel⟩ := Option.isSome_iff_exists.1 (h.isSome_iff.2 hresolves)
      obtain ⟨other, hother⟩ := Option.isSome_iff_exists.1 (hnext.isSome_iff.2 hresolves)
      obtain ⟨mine, hmine, rfl⟩ := h.flattened decl hmem model hmodel
      obtain ⟨theirs, htheirs, rfl⟩ := hnext.flattened decl hmem other hother
      rw [hmodel, hother, hmine.eq_of_forall htheirs ih]
  · rw [h.isNone_iff.2 hname, hnext.isNone_iff.2 hname]

/-- There is one full part of a list of declarations. -/
theorem IsSettled.unique (h : IsSettled decls schema) (hnext : IsSettled decls next) :
    schema = next :=
  Schema.ext (Dictionary.eq_of_find?_eq h.ordered hnext.ordered fun _ => h.model?_eq hnext)

/-- A schema of all declarations. -/
structure IsWhole (decls : List ClassDecl) (schema : Schema) : Prop extends
    IsPart decls schema where
  registered : ∀ decl ∈ decls, (schema.model? decl.name).isSome

theorem IsWhole.isSettled (h : IsWhole decls schema) : IsSettled decls schema :=
  ⟨h.toIsPart, fun decl hmem _ => h.registered decl hmem⟩

/-- The order of the declarations does not matter. -/
theorem IsWhole.of_perm (h : IsWhole decls schema) (hperm : others.Perm decls) :
    IsWhole others schema :=
  ⟨h.toIsPart.of_subset hperm.symm.subset hperm.subset,
    fun decl hmem => h.registered decl (hperm.subset hmem)⟩

theorem missing_eq_nil_iff :
    schema.missing decls = [] ↔ ∀ decl ∈ decls, (schema.model? decl.name).isSome := by
  simp [missing, List.filter_eq_nil_iff, Option.isSome_iff_ne_none]

section Distinct

variable (hnames : (decls.map (·.name)).Nodup)
include hnames

/-- The rounds on all declarations. -/
theorem ofDeclarations_eq :
    ∃ last, IsSettled decls last ∧
      ofDeclarations decls =
        if last.missing decls = [] then .ok last
        else reject (.unresolvedParents ((last.missing decls).map (·.name))) := by
  have hall : empty.missing decls = decls := List.filter_eq_self.2 fun _ _ => rfl
  have hsettle := settle_missing hnames (isPart_empty : IsPart decls empty)
  rwa [hall] at hsettle

/-- The schema of declarations, with no order in it. -/
theorem ofDeclarations_eq_ok : ofDeclarations decls = .ok schema ↔ IsWhole decls schema := by
  obtain ⟨last, hlast, heq⟩ := ofDeclarations_eq hnames
  rw [heq]
  constructor
  · intro hok
    split at hok
    · next hnone =>
      cases hok
      exact ⟨hlast.toIsPart, missing_eq_nil_iff.1 hnone⟩
    · cases hok
  · intro hwhole
    obtain rfl := hlast.unique hwhole.isSettled
    rw [if_pos (missing_eq_nil_iff.2 hwhole.registered)]

open scoped Classical in
/-- The declarations that a failure names. -/
theorem eq_of_ofDeclarations_eq_error {e : QueryError} (h : ofDeclarations decls = .error e) :
    e = .attribute (.unresolvedParents
      ((decls.filter fun decl => Unresolved decls decl.name).map (·.name))) := by
  obtain ⟨last, hlast, heq⟩ := ofDeclarations_eq hnames
  have hmissing : last.missing decls = decls.filter fun decl => Unresolved decls decl.name := by
    refine List.filter_congr fun decl _ => ?_
    rw [Bool.eq_iff_iff, Option.isNone_iff_eq_none, hlast.isNone_iff, resolves_iff hnames, not_not,
      decide_eq_true_iff]
  rw [heq, hmissing] at h
  split at h
  · cases h
  · cases h
    rfl

/-- Declarations have a schema exactly if all resolve. -/
theorem exists_ofDeclarations_iff :
    (∃ schema, ofDeclarations decls = .ok schema) ↔ Resolvable decls := by
  rw [resolvable_iff]
  constructor
  · rintro ⟨schema, hschema⟩ decl hmem
    have hwhole := (ofDeclarations_eq_ok hnames).1 hschema
    exact (hwhole.resolves _ (hwhole.registered decl hmem)).not_unresolved hnames
  · intro hsound
    obtain ⟨last, hlast, heq⟩ := ofDeclarations_eq hnames
    refine ⟨last, heq.trans (if_pos (missing_eq_nil_iff.2 fun decl hmem => ?_))⟩
    exact hlast.isSome_iff.2 (resolves_of_not_unresolved (hsound decl hmem))

-- ---------------------------------------------------------------------------
-- What a class of a schema is
-- ---------------------------------------------------------------------------

/-- The ancestors that a class lists are those that the declarations give it. -/
theorem IsPart.mem_inherits_iff {name a : String} {model : ClassModel} (h : IsPart decls schema)
    (hmodel : schema.model? name = some model) :
    a ∈ model.inherits ↔ IsAncestor decls name a := by
  have hname : Resolves decls name := h.resolves name (by rw [hmodel]; rfl)
  induction hname generalizing model with
  | @intro decl hmem _ ih =>
    obtain ⟨parents, hparents, rfl⟩ := h.flattened decl hmem model hmodel
    -- a parent hands down itself and what the induction says that it inherits
    have hisA : ∀ parent m, parent ∈ decl.parents → schema.model? parent = some m →
        (m.isA a = true ↔ parent = a ∨ IsAncestor decls parent a) := by
      intro parent m hparent hm
      rw [ClassModel.isA_iff, h.name_eq hm]
      exact or_congr_right (ih parent hparent hm)
    rw [ClassDecl.mem_inherits_modelFrom, isAncestor_iff]
    constructor
    · rintro ⟨m, hm, ha⟩
      obtain ⟨parent, hparent, hmodel⟩ := hparents.mem_iff.1 hm
      exact ⟨parent, (namesParent_iff hnames hmem).2 hparent, (hisA parent m hparent hmodel).1 ha⟩
    · rintro ⟨parent, hstep, ha⟩
      have hparent := (namesParent_iff hnames hmem).1 hstep
      obtain ⟨m, hm⟩ := Option.isSome_iff_exists.1 (hparents.isSome hparent)
      exact ⟨m, hparents.mem_iff.2 ⟨parent, hparent, hm⟩, (hisA parent m hparent hm).2 ha⟩

/-- A class has all that its declaration gives it, and what its parents have. -/
structure IsFlattened (decls : List ClassDecl) (decl : ClassDecl) (parents : List ClassModel)
    (model : ClassModel) : Prop where
  name : model.name = decl.name
  nodup : model.inherits.Nodup
  ancestors : ∀ a, a ∈ model.inherits ↔ IsAncestor decls decl.name a
  /-- An own property comes first, then that of the last parent that has it. -/
  property : ∀ key, model.property? key =
    (Dictionary.find? key (Dictionary.ofList decl.properties)).or
      (parents.reverse.findSome? (·.property? key))
  indices : model.indices = parents.flatMap (·.indices) ++ decl.indices
  isAbstract : model.isAbstract = decl.isAbstract
  embedded : model.embedded = decl.embedded

/-- A class of a part is flattened: its parents are there, and its ancestors, properties and indices
come from them. -/
theorem IsPart.isFlattened {model : ClassModel} (h : IsPart decls schema) (hmem : decl ∈ decls)
    (hmodel : schema.model? decl.name = some model) :
    ∃ parents, schema.HasModels decl.parents parents ∧ IsFlattened decls decl parents model := by
  obtain ⟨parents, hparents, rfl⟩ := h.flattened decl hmem model hmodel
  refine ⟨parents, hparents, rfl, ClassDecl.nodup_inherits_modelFrom,
    fun a => h.mem_inherits_iff hnames hmodel, fun key => ?_, ClassDecl.indices_modelFrom, rfl, rfl⟩
  refine ClassDecl.property?_modelFrom key fun m hm => ?_
  obtain ⟨parent, -, hparent⟩ := hparents.mem_iff.1 hm
  exact h.ordered_properties hparent

end Distinct

open scoped Classical in
/-- Declarations of distinct names have a schema if and only if every parent is declared and there
is no cycle. It has the declared classes, each flattened, and the order of the declarations does
not matter to it. Otherwise the failure names the declarations that lead to an undeclared class or
into a cycle, in the order in which they are given. -/
theorem ofDeclarations_flattens (decls : List ClassDecl) (hnames : (decls.map (·.name)).Nodup) :
    ((∃ schema, ofDeclarations decls = .ok schema) ↔ Resolvable decls) ∧
    (∀ schema, ofDeclarations decls = .ok schema →
      (∀ name, (schema.model? name).isSome ↔ IsDeclared decls name) ∧
      (∀ decl ∈ decls, ∃ model parents, schema.model? decl.name = some model ∧
        schema.HasModels decl.parents parents ∧ IsFlattened decls decl parents model) ∧
      ∀ others, others.Perm decls → ofDeclarations others = .ok schema) ∧
    ∀ e, ofDeclarations decls = .error e → e = .attribute (.unresolvedParents
      ((decls.filter fun decl => Unresolved decls decl.name).map (·.name))) := by
  refine ⟨exists_ofDeclarations_iff hnames, fun schema hschema => ?_,
    fun e => eq_of_ofDeclarations_eq_error hnames⟩
  have hwhole := (ofDeclarations_eq_ok hnames).1 hschema
  -- the three facts about one schema: which names it has, what its classes are, and any order
  refine ⟨fun name => ?_, fun decl hmem => ?_, fun others hperm => ?_⟩
  · constructor
    · exact fun hname => (hwhole.resolves name hname).isDeclared
    · rintro ⟨decl, hmem, rfl⟩
      exact hwhole.registered decl hmem
  · obtain ⟨model, hmodel⟩ := Option.isSome_iff_exists.1 (hwhole.registered decl hmem)
    obtain ⟨parents, hparents, hflattened⟩ := hwhole.isFlattened hnames hmem hmodel
    exact ⟨model, parents, hmodel, hparents, hflattened⟩
  · have hothers : (others.map (·.name)).Nodup := (hperm.map _).nodup_iff.2 hnames
    exact (ofDeclarations_eq_ok hothers).2 (hwhole.of_perm hperm)

/-- A class below two that share a parent, given before all of them. And two classes that are below
each other, next to one below a class that is not declared. -/
theorem ofDeclarations_flattens_diamond :
    let diamond : List ClassDecl := [{ name := "Target", parents := ["Gene", "Drug"] },
      { name := "Drug", parents := ["V"] }, { name := "Gene", parents := ["V"] }, { name := "V" }]
    let tangle : List ClassDecl := [{ name := "A", parents := ["B"] }, { name := "V" },
      { name := "Orphan", parents := ["Missing"] }, { name := "B", parents := ["V", "A"] }]
    ((diamond.map (·.name)).Nodup ∧ Resolvable diamond ∧
      ofDeclarations diamond.reverse = ofDeclarations diamond) ∧
    (tangle.map (·.name)).Nodup ∧ ¬ Resolvable tangle := by
  intro diamond tangle
  have hdiamond : (diamond.map (·.name)).Nodup := by decide
  have htangle : (tangle.map (·.name)).Nodup := by decide
  obtain ⟨hiff, hok, -⟩ := ofDeclarations_flattens diamond hdiamond
  obtain ⟨hnone, -, -⟩ := ofDeclarations_flattens tangle htangle
  have hstuck : ofDeclarations tangle = reject (.unresolvedParents ["A", "Orphan", "B"]) := by cbv
  obtain ⟨schema, hschema⟩ : ∃ schema, ofDeclarations diamond = .ok schema := ⟨_, by cbv⟩
  refine ⟨⟨hdiamond, hiff.1 ⟨schema, hschema⟩, ?_⟩, htangle, fun hresolvable => ?_⟩
  · rw [hschema]
    exact (hok schema hschema).2.2 _ diamond.reverse_perm
  · obtain ⟨schema, hschema⟩ := hnone.2 hresolvable
    rw [hstuck] at hschema
    cases hschema

end Schema

end RecordQuery
