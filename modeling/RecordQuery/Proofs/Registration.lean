import Mathlib.Data.List.Induction
import RecordQuery.Proofs.Inheritance

/-!
# Registering classes one by one

Classes may also be registered one by one. A call fails if a parent is not known, and leaves the
schema as it was; a class of a name that is known already takes the place of the other one.

What a class inherits is worked out once, when it is registered, and copied into it. A class that
is replaced has descendants that keep what they inherited from its predecessor, and it may name
itself or one of them as a parent, since these are known. So inheritance is a partial order as long
as names are new, and a replacement keeps it one if and only if it is *harmless*.

* `Schema.afterCalls` — the schema that calls lead to.
* `Schema.isOrder_attempt_iff` — what one call does to the order.
* `Schema.afterCalls_isOrder_iff` — what a run of calls does to it.
* `Schema.not_isOrder_afterCalls` — a class can become its own ancestor, and an ancestor of an
  ancestor need not be one.
-/

namespace RecordQuery

namespace Schema

/-- The schema after one call: with the class, or as it was if the class is turned down. -/
def attempt (schema : Schema) (decl : ClassDecl) : Schema :=
  match schema.register decl with
  | .ok next => next
  | .error _ => schema

/-- The schema after calls one after another, of which the first meets the empty schema. -/
def afterCalls (decls : List ClassDecl) : Schema := decls.foldl attempt empty

-- ---------------------------------------------------------------------------
-- What every call keeps
-- ---------------------------------------------------------------------------

/-- The ancestors of a class are classes. -/
structure IsClosed (schema : Schema) : Prop where
  known : ∀ name model, schema.model? name = some model →
    ∀ a ∈ model.inherits, (schema.model? a).isSome

variable {schema : Schema} {decl : ClassDecl} {parents : List ClassModel}

/-- All that a class is, is known. -/
theorem IsClosed.isSome_of_isA (h : schema.IsClosed) {name a : String} {model : ClassModel}
    (hmodel : schema.model? name = some model) (ha : model.isA a = true) :
    (schema.model? a).isSome := by
  rcases ClassModel.isA_iff.1 ha with rfl | ha
  · rw [name_of_model? hmodel, hmodel]
    rfl
  · exact h.known name model hmodel a ha

/-- What a class would inherit from known parents is known. -/
theorem IsClosed.isSome_of_inherits (h : schema.IsClosed)
    (hparents : schema.HasModels decl.parents parents) {a : String}
    (ha : a ∈ (decl.modelFrom parents).inherits) : (schema.model? a).isSome := by
  obtain ⟨m, hm, hisA⟩ := ClassDecl.mem_inherits_modelFrom.1 ha
  obtain ⟨name, -, hname⟩ := hparents.mem_iff.1 hm
  exact h.isSome_of_isA hname hisA

/-- Storing a class with known parents loses no class, and all that the new one inherits was known
before. -/
theorem IsClosed.put (h : schema.IsClosed) (hparents : schema.HasModels decl.parents parents) :
    (schema.put (decl.modelFrom parents)).IsClosed := by
  -- a class that was known is known still, also if the new one takes its place
  have hkept : ∀ {a : String}, (schema.model? a).isSome →
      ((schema.put (decl.modelFrom parents)).model? a).isSome := by
    intro a ha
    rw [model?_put]
    split
    · rfl
    · exact ha
  constructor
  intro name model hmodel a ha
  rw [model?_put] at hmodel
  split at hmodel
  · cases hmodel
    exact hkept (h.isSome_of_inherits hparents ha)
  · exact hkept (h.known name model hmodel a ha)

/-- Registering a class keeps the ancestors of classes among the classes. -/
theorem IsClosed.register (h : schema.IsClosed) {next : Schema}
    (hnext : schema.register decl = .ok next) : next.IsClosed := by
  obtain ⟨parents, hparents, rfl⟩ := register_eq_ok.1 hnext
  exact h.put hparents

/-- A call keeps the ancestors of classes among the classes, whether it succeeds or fails. -/
theorem IsClosed.attempt (h : schema.IsClosed) (decl : ClassDecl) :
    (schema.attempt decl).IsClosed := by
  rw [Schema.attempt]
  split
  · next next hnext => exact h.register hnext
  · exact h

/-- A run of calls ends with the last call. -/
theorem afterCalls_append_singleton (decls : List ClassDecl) (decl : ClassDecl) :
    afterCalls (decls ++ [decl]) = (afterCalls decls).attempt decl := by
  rw [afterCalls, List.foldl_append]
  rfl

theorem isClosed_empty : empty.IsClosed where
  known _ _ h := by cases h

/-- Whatever is called, the ancestors of classes are classes. -/
theorem isClosed_afterCalls (decls : List ClassDecl) : (afterCalls decls).IsClosed := by
  induction decls using List.reverseRecOn with
  | nil => exact isClosed_empty
  | append_singleton decls decl ih =>
    rw [afterCalls_append_singleton]
    exact ih.attempt decl

-- ---------------------------------------------------------------------------
-- What a harmless call keeps
-- ---------------------------------------------------------------------------

/-- Inheritance is a partial order on the classes of a schema. -/
structure IsOrder (schema : Schema) : Prop where
  known : ∀ name model, schema.model? name = some model →
    ∀ a ∈ model.inherits, (schema.model? a).isSome
  irreflexive : ∀ name model, schema.model? name = some model → model.name ∉ model.inherits
  transitive : ∀ x y z mx my, schema.model? x = some mx → schema.model? y = some my →
    mx.isA y = true → my.isA z = true → mx.isA z = true

theorem IsOrder.isClosed (h : schema.IsOrder) : schema.IsClosed := ⟨h.known⟩

/-- A call does not make a class its own ancestor, and gives it no ancestor that a class below it
lacks. -/
def Harmless (schema : Schema) (decl : ClassDecl) : Prop :=
  ∀ next, schema.register decl = .ok next → ∀ model, next.model? decl.name = some model →
    decl.name ∉ model.inherits ∧
      ∀ x mx, schema.model? x = some mx → decl.name ∈ mx.inherits →
        ∀ a ∈ model.inherits, mx.isA a = true

/-- What a harmless call is, in terms of the class that it stores: not below itself, and with no
ancestor that is news to a class below it. -/
theorem harmless_iff (hparents : schema.HasModels decl.parents parents) :
    schema.Harmless decl ↔
      decl.name ∉ (decl.modelFrom parents).inherits ∧
        ∀ x mx, schema.model? x = some mx → decl.name ∈ mx.inherits →
          ∀ a ∈ (decl.modelFrom parents).inherits, mx.isA a = true := by
  have hregister : schema.register decl = .ok (schema.put (decl.modelFrom parents)) :=
    register_eq_ok.2 ⟨parents, hparents, rfl⟩
  constructor
  · exact fun h => h _ hregister _ model?_put_modelFrom
  · intro h next hnext model hmodel
    rw [hregister] at hnext
    cases hnext
    rw [model?_put_modelFrom] at hmodel
    cases hmodel
    exact h

/-- A registration that keeps the order was harmless: what it did to the classes below shows in the
order afterwards. -/
theorem IsOrder.harmless_of_put (horder : schema.IsOrder)
    (hparents : schema.HasModels decl.parents parents)
    (h : (schema.put (decl.modelFrom parents)).IsOrder) : schema.Harmless decl := by
  have hown := @model?_put_modelFrom schema decl parents
  rw [harmless_iff hparents]
  refine ⟨h.irreflexive decl.name _ hown, fun x mx hx hbelow a ha => ?_⟩
  -- the class itself is not below it, so what is below it stays as it was
  have hne : x ≠ decl.name := by
    rintro rfl
    have hnot := horder.irreflexive decl.name mx hx
    rw [name_of_model? hx] at hnot
    exact hnot hbelow
  rw [← model?_put_of_ne hne] at hx
  exact h.transitive x decl.name a mx _ hx hown (ClassModel.isA_iff.2 (.inr hbelow))
    (ClassModel.isA_iff.2 (.inr ha))

/-- An ancestor of the new class is what one of its parents is, so it has no ancestors but those
that the new class has. -/
theorem IsOrder.isA_modelFrom (horder : schema.IsOrder)
    (hparents : schema.HasModels decl.parents parents) {y z : String} {my : ClassModel}
    (hy : schema.model? y = some my) (hmem : y ∈ (decl.modelFrom parents).inherits)
    (hyz : my.isA z = true) : (decl.modelFrom parents).isA z = true := by
  obtain ⟨m, hm, hmy⟩ := ClassDecl.mem_inherits_modelFrom.1 hmem
  obtain ⟨p, -, hp⟩ := hparents.mem_iff.1 hm
  have hmz := horder.transitive p y z m my hp hy hmy hyz
  exact ClassModel.isA_iff.2 (.inr (ClassDecl.mem_inherits_modelFrom.2 ⟨m, hm, hmz⟩))

/-- A harmless registration keeps the order. Where one of the classes in a law is the new one, what
is to be checked is what being harmless says; all others are as they were. -/
theorem IsOrder.put (horder : schema.IsOrder)
    (hparents : schema.HasModels decl.parents parents) (h : schema.Harmless decl) :
    (schema.put (decl.modelFrom parents)).IsOrder := by
  have hown := @model?_put_modelFrom schema decl parents
  obtain ⟨hself, hbelow⟩ := (harmless_iff hparents).1 h
  -- only the new class and those that list it can be out of order, and these are harmless
  refine ⟨(horder.isClosed.put hparents).known, ?_, ?_⟩
  · intro name model hmodel
    by_cases hname : name = decl.name
    · subst hname
      rw [hown] at hmodel
      cases hmodel
      exact hself
    · rw [model?_put_of_ne hname] at hmodel
      exact horder.irreflexive name model hmodel
  · -- each of the two classes below is the new one or as it was
    intro x y z mx my hx hy hxy hyz
    by_cases hxname : x = decl.name
    · subst hxname
      rw [hown] at hx
      cases hx
      by_cases hyname : y = decl.name
      · subst hyname
        rw [hown] at hy
        cases hy
        exact hyz
      · rw [model?_put_of_ne hyname] at hy
        rcases ClassModel.isA_iff.1 hxy with heq | hmem
        · exact absurd heq.symm hyname
        · exact horder.isA_modelFrom hparents hy hmem hyz
    · rw [model?_put_of_ne hxname] at hx
      -- a class from before that lists the new one: what is above the new one is above it as well
      by_cases hyname : y = decl.name
      · subst hyname
        rw [hown] at hy
        cases hy
        have hlisted : decl.name ∈ mx.inherits := by
          rcases ClassModel.isA_iff.1 hxy with heq | hmem
          · rw [name_of_model? hx] at heq
            exact absurd heq hxname
          · exact hmem
        rcases ClassModel.isA_iff.1 hyz with rfl | hz
        · exact hxy
        · exact hbelow x mx hx hlisted z hz
      · rw [model?_put_of_ne hyname] at hy
        exact horder.transitive x y z mx my hx hy hxy hyz

/-- Registering a class keeps the order exactly if it is harmless. -/
theorem isOrder_put_iff (horder : schema.IsOrder)
    (hparents : schema.HasModels decl.parents parents) :
    (schema.put (decl.modelFrom parents)).IsOrder ↔ schema.Harmless decl :=
  ⟨horder.harmless_of_put hparents, horder.put hparents⟩

/-- One call keeps the order exactly if it is harmless. A call that fails is. -/
theorem isOrder_attempt_iff (horder : schema.IsOrder) :
    (schema.attempt decl).IsOrder ↔ schema.Harmless decl := by
  rw [attempt]
  split
  · next next hnext =>
    obtain ⟨parents, hparents, rfl⟩ := register_eq_ok.1 hnext
    exact isOrder_put_iff horder hparents
  · next e herror =>
    refine ⟨fun _ next hnext => ?_, fun _ => horder⟩
    rw [herror] at hnext
    cases hnext

/-- A class of a new name is harmless: no class lists it, and all that it inherits is known. -/
theorem harmless_of_new (hclosed : schema.IsClosed) (hnew : schema.model? decl.name = none) :
    schema.Harmless decl := by
  have hunknown : ¬ (schema.model? decl.name).isSome := by simp [hnew]
  intro next hnext
  obtain ⟨parents, hparents, -⟩ := register_eq_ok.1 hnext
  refine (harmless_iff hparents).2 ⟨?_, ?_⟩ next hnext
  · exact fun hself => hunknown (hclosed.isSome_of_inherits hparents hself)
  · exact fun x mx hx hbelow => absurd (hclosed.known x mx hx _ hbelow) hunknown

-- ---------------------------------------------------------------------------
-- Runs of calls
-- ---------------------------------------------------------------------------

/-- The empty schema has nothing to order. -/
theorem isOrder_empty : empty.IsOrder where
  known _ _ h := by cases h
  irreflexive _ _ h := by cases h
  transitive _ _ _ _ _ h := by cases h

/-- Only names that were called are known. A call that was turned down brings in none, and every
other call its own. -/
theorem mem_names_of_afterCalls {decls : List ClassDecl} {name : String}
    (h : ((afterCalls decls).model? name).isSome) : name ∈ decls.map (·.name) := by
  induction decls using List.reverseRecOn with
  | nil => cases h
  -- a name is known since an earlier call, or by the last one
  | append_singleton decls decl ih =>
    rw [List.map_append, List.mem_append]
    rw [afterCalls_append_singleton, attempt] at h
    split at h
    · next next hnext =>
      obtain ⟨parents, -, rfl⟩ := register_eq_ok.1 hnext
      by_cases hname : name = decl.name
      · exact .inr (by simp [hname])
      · rw [model?_put_of_ne hname] at h
        exact .inl (ih h)
    · exact .inl (ih h)

/-- The ancestors of classes are classes, whatever is called. Inheritance is a partial order after
each call if and only if every call is harmless, and it is one if no name is called twice. -/
theorem afterCalls_isOrder_iff (decls : List ClassDecl) :
    (∀ name model, (afterCalls decls).model? name = some model →
      ∀ a ∈ model.inherits, ((afterCalls decls).model? a).isSome) ∧
    ((∀ front, front <+: decls → (afterCalls front).IsOrder) ↔
      ∀ front decl, front ++ [decl] <+: decls → (afterCalls front).Harmless decl) ∧
    ((decls.map (·.name)).Nodup → (afterCalls decls).IsOrder) := by
  refine ⟨(isClosed_afterCalls decls).known, ?_, ?_⟩
  · constructor
    · intro h front decl hfront
      have hbefore := h front ((List.prefix_append front [decl]).trans hfront)
      have hafter := h _ hfront
      rw [afterCalls_append_singleton] at hafter
      exact (isOrder_attempt_iff hbefore).1 hafter
    · intro h front hfront
      induction front using List.reverseRecOn with
      | nil => exact isOrder_empty
      | append_singleton front decl ih =>
        have hbefore := ih ((List.prefix_append front [decl]).trans hfront)
        rw [afterCalls_append_singleton]
        exact (isOrder_attempt_iff hbefore).2 (h front decl hfront)
  -- with distinct names no call overwrites a class, so each is harmless
  · intro hnames
    induction decls using List.reverseRecOn with
    | nil => exact isOrder_empty
    | append_singleton decls decl ih =>
      rw [List.map_append, List.nodup_append] at hnames
      obtain ⟨hdecls, -, hdisjoint⟩ := hnames
      have hnew : (afterCalls decls).model? decl.name = none := by
        rw [← Option.not_isSome_iff_eq_none]
        exact fun hsome => hdisjoint _ (mem_names_of_afterCalls hsome) decl.name (by simp) rfl
      rw [afterCalls_append_singleton]
      exact (isOrder_attempt_iff (ih hdecls)).2
        (harmless_of_new (isClosed_afterCalls decls) hnew)

/-- A class with two parents that have one in common, and a class that is turned down in between. -/
theorem afterCalls_isOrder_diamond :
    let decls : List ClassDecl := [{ name := "V" }, { name := "Gene", parents := ["V"] },
      { name := "Orphan", parents := ["Missing"] }, { name := "Drug", parents := ["V"] },
      { name := "Target", parents := ["Gene", "Drug"] }]
    (decls.map (·.name)).Nodup ∧ (afterCalls decls).IsOrder := by
  intro decls
  have hnames : (decls.map (·.name)).Nodup := by decide
  exact ⟨hnames, (afterCalls_isOrder_iff decls).2.2 hnames⟩

/-- A class that is registered again with itself as a parent is its own ancestor. A class that is
registered again below another does not take its descendants along. -/
theorem not_isOrder_afterCalls :
    ¬ (afterCalls [{ name := "A" }, { name := "A", parents := ["A"] }]).IsOrder ∧
    ¬ (afterCalls [{ name := "A" }, { name := "B" }, { name := "C", parents := ["A"] },
      { name := "A", parents := ["B"] }]).IsOrder := by
  constructor
  · intro h
    have hself := h.irreflexive "A" _ rfl
    revert hself
    decide
  · intro h
    have hmissing := h.transitive "C" "A" "B" _ _ rfl rfl rfl rfl
    revert hmissing
    decide

end Schema

end RecordQuery
