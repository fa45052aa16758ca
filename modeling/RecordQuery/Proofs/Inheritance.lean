import Mathlib.Data.List.Forall2
import RecordQuery.Schema.Basic

/-!
# What a class inherits from its parents

A declaration is registered by taking over from one parent after another. This module says what that
comes to, so that no statement about schemas looks at the loop over the parents:

* `ClassDecl.modelFrom` — the class of a declaration, given the classes of its parents.
* `ClassDecl.mem_inherits_modelFrom`, `ClassDecl.nodup_inherits_modelFrom` — its ancestors.
* `ClassDecl.property?_modelFrom`, `ClassDecl.indices_modelFrom` — its properties and indices.
* `Schema.register_eq_ok` — when a declaration is registered, and as which class.
-/

namespace RecordQuery

-- ---------------------------------------------------------------------------
-- Parents taken one after another
-- ---------------------------------------------------------------------------

namespace Heritage

/-- What parents hand down one after another. -/
def takeAll (h : Heritage) (parents : List ClassModel) : Heritage := parents.foldl take h

/-- Adding names to a list loses none of them. -/
theorem mem_foldl_addName {a : String} {names more : List String} :
    a ∈ more.foldl addName names ↔ a ∈ names ∨ a ∈ more := by
  induction more generalizing names with
  | nil => simp
  | cons name rest ih =>
    have hadd : a ∈ addName names name ↔ a ∈ names ∨ a = name := by
      rw [addName]
      split
      · next hmem => exact ⟨.inl, fun h => h.elim id fun heq => heq ▸ hmem⟩
      · simp
    rw [List.foldl_cons, ih, hadd, List.mem_cons, or_assoc]

/-- Adding names to a list without repetitions leaves it without: a name that is there already is
not added again. -/
theorem nodup_foldl_addName {names more : List String} (h : names.Nodup) :
    (more.foldl addName names).Nodup := by
  induction more generalizing names with
  | nil => exact h
  | cons name rest ih =>
    refine ih ?_
    rw [addName]
    split
    · exact h
    · next hnot =>
      rw [List.nodup_append]
      refine ⟨h, by simp, fun a ha b hb => ?_⟩
      rintro rfl
      rw [List.mem_singleton.1 hb] at ha
      exact hnot ha

variable {h : Heritage} {parents : List ClassModel}

/-- The ancestors that a class takes over are its parents and theirs. -/
theorem mem_ancestors_takeAll {a : String} :
    a ∈ (h.takeAll parents).ancestors ↔ a ∈ h.ancestors ∨ ∃ m ∈ parents, m.isA a = true := by
  induction parents generalizing h with
  | nil => simp [takeAll]
  | cons m rest ih =>
    have htake : a ∈ (h.take m).ancestors ↔ a ∈ h.ancestors ∨ m.isA a = true := by
      rw [take, mem_foldl_addName, List.mem_cons, ClassModel.isA_iff, eq_comm]
    show a ∈ ((h.take m).takeAll rest).ancestors ↔ _
    rw [ih, htake, or_assoc, List.exists_mem_cons_iff]

/-- A class that is named by several parents is taken over once. -/
theorem nodup_ancestors_takeAll (hstart : h.ancestors.Nodup) :
    (h.takeAll parents).ancestors.Nodup := by
  induction parents generalizing h with
  | nil => exact hstart
  | cons m rest ih => exact ih (nodup_foldl_addName hstart)

/-- Indices are taken over parent by parent and a repeated one is kept. -/
theorem indices_takeAll :
    (h.takeAll parents).indices = h.indices ++ parents.flatMap (·.indices) := by
  induction parents generalizing h with
  | nil => simp [takeAll]
  | cons m rest ih =>
    show ((h.take m).takeAll rest).indices = _
    rw [ih, take, List.flatMap_cons, List.append_assoc]

/-- The properties that are taken over form a dictionary in the order of their names. -/
theorem ordered_properties_takeAll (hstart : Dictionary.Ordered h.properties) :
    Dictionary.Ordered (h.takeAll parents).properties := by
  induction parents generalizing h with
  | nil => exact hstart
  | cons m rest ih => exact ih (Dictionary.ordered_extend hstart)

/-- Of the parents that have a property the last one counts, and what was taken over before them
counts only if none of them has it. -/
theorem find?_properties_takeAll (key : String)
    (hparents : ∀ m ∈ parents, Dictionary.Ordered m.properties) :
    Dictionary.find? key (h.takeAll parents).properties =
      (parents.reverse.findSome? (·.property? key)).or (Dictionary.find? key h.properties) := by
  induction parents generalizing h with
  | nil => rfl
  | cons m rest ih =>
    have hm := hparents m (List.mem_cons_self ..)
    have htake : Dictionary.find? key (h.take m).properties =
        (m.property? key).or (Dictionary.find? key h.properties) := by
      rw [take, Dictionary.find?_extend, Dictionary.find?_ofList hm]
      rfl
    show Dictionary.find? key ((h.take m).takeAll rest).properties = _
    rw [ih fun m hm => hparents m (List.mem_cons_of_mem _ hm), htake, List.reverse_cons,
      List.findSome?_append, List.findSome?_singleton, Option.or_assoc]

end Heritage

-- ---------------------------------------------------------------------------
-- The class of a declaration
-- ---------------------------------------------------------------------------

namespace ClassDecl

/-- The class of a declaration whose parents are the given classes. -/
def modelFrom (decl : ClassDecl) (parents : List ClassModel) : ClassModel :=
  (Heritage.takeAll {} parents).complete decl

variable {decl : ClassDecl} {parents : List ClassModel}

theorem name_modelFrom : (decl.modelFrom parents).name = decl.name := rfl

/-- The ancestors are the parents and theirs. -/
theorem mem_inherits_modelFrom {a : String} :
    a ∈ (decl.modelFrom parents).inherits ↔ ∃ m ∈ parents, m.isA a = true := by
  show a ∈ (Heritage.takeAll {} parents).ancestors ↔ _
  rw [Heritage.mem_ancestors_takeAll]
  simp

theorem nodup_inherits_modelFrom : (decl.modelFrom parents).inherits.Nodup :=
  Heritage.nodup_ancestors_takeAll List.nodup_nil

/-- The own indices of a class stand behind those of its parents. -/
theorem indices_modelFrom :
    (decl.modelFrom parents).indices = parents.flatMap (·.indices) ++ decl.indices := by
  show (Heritage.takeAll {} parents).indices ++ decl.indices = _
  rw [Heritage.indices_takeAll, List.nil_append]

theorem ordered_properties_modelFrom :
    Dictionary.Ordered (decl.modelFrom parents).properties :=
  Dictionary.ordered_extend (Heritage.ordered_properties_takeAll Dictionary.ordered_nil)

/-- An own property comes before an inherited one, and a later parent before an earlier one. -/
theorem property?_modelFrom (key : String)
    (hparents : ∀ m ∈ parents, Dictionary.Ordered m.properties) :
    (decl.modelFrom parents).property? key =
      (Dictionary.find? key (Dictionary.ofList decl.properties)).or
        (parents.reverse.findSome? (·.property? key)) := by
  show Dictionary.find? key (Dictionary.extend (Heritage.takeAll {} parents).properties _) = _
  rw [Dictionary.find?_extend, Heritage.find?_properties_takeAll key hparents]
  simp [Dictionary.find?]

end ClassDecl

-- ---------------------------------------------------------------------------
-- Registering a class
-- ---------------------------------------------------------------------------

namespace Schema

/-- The classes of names, one for each. -/
def HasModels (schema : Schema) (names : List String) (models : List ClassModel) : Prop :=
  List.Forall₂ (fun name model => schema.model? name = some model) names models

variable {schema next : Schema} {decl : ClassDecl} {names : List String}

theorem model?_put (model : ClassModel) (name : String) :
    (schema.put model).model? name = if model.name = name then some model else schema.model? name :=
  Dictionary.find?_insert ..

theorem model?_put_modelFrom {parents : List ClassModel} :
    (schema.put (decl.modelFrom parents)).model? decl.name = some (decl.modelFrom parents) := by
  rw [model?_put, ClassDecl.name_modelFrom, if_pos rfl]

/-- Storing a declared class leaves the classes of other names as they are. -/
theorem model?_put_of_ne {parents : List ClassModel} {name : String} (h : name ≠ decl.name) :
    (schema.put (decl.modelFrom parents)).model? name = schema.model? name := by
  rw [model?_put, if_neg]
  exact fun heq => h heq.symm

/-- Taking over from parents by name works exactly when each name is a registered class, and then
takes over from those classes in turn. -/
theorem heritage_eq_ok {className : String} {start h : Heritage} :
    schema.heritage className start names = .ok h ↔
      ∃ models, schema.HasModels names models ∧ start.takeAll models = h := by
  induction names generalizing start with
  | nil => simp [heritage, HasModels, Heritage.takeAll]
  | cons name rest ih =>
    rw [heritage]
    cases hmodel : schema.model? name with
    | none => simp [HasModels, List.forall₂_cons_left_iff, hmodel, reject]
    | some model =>
      -- the first parent is taken over before the rest are looked up, so the start is not fixed
      rw [ih]
      constructor
      · rintro ⟨models, hrest, rfl⟩
        exact ⟨model :: models, .cons hmodel hrest, rfl⟩
      · rintro ⟨models, hmodels, rfl⟩
        obtain ⟨m, others, hm, hothers, rfl⟩ := List.forall₂_cons_left_iff.1 hmodels
        obtain rfl : model = m := by simpa [hmodel] using hm
        exact ⟨others, hothers, rfl⟩

/-- When a declaration is registered, and as which class. -/
theorem register_eq_ok :
    schema.register decl = .ok next ↔
      ∃ parents, schema.HasModels decl.parents parents ∧
        next = schema.put (decl.modelFrom parents) := by
  rw [register, bind_eq_ok]
  simp only [heritage_eq_ok, pure, Except.pure, Except.ok.injEq]
  constructor
  · rintro ⟨_, ⟨parents, hparents, rfl⟩, rfl⟩
    exact ⟨parents, hparents, rfl⟩
  · rintro ⟨parents, hparents, rfl⟩
    exact ⟨_, ⟨parents, hparents, rfl⟩, rfl⟩

/-- Names that are all registered have their classes. -/
theorem HasModels.of_forall (h : ∀ name ∈ names, (schema.model? name).isSome) :
    ∃ models, schema.HasModels names models := by
  induction names with
  | nil => exact ⟨[], .nil⟩
  | cons name rest ih =>
    obtain ⟨model, hmodel⟩ := Option.isSome_iff_exists.1 (h name (List.mem_cons_self ..))
    obtain ⟨models, hmodels⟩ := ih fun name hname => h name (List.mem_cons_of_mem _ hname)
    exact ⟨model :: models, .cons hmodel hmodels⟩

/-- The classes of names are known by name. -/
theorem HasModels.mem_iff {models : List ClassModel} (h : schema.HasModels names models)
    {model : ClassModel} : model ∈ models ↔ ∃ name ∈ names, schema.model? name = some model := by
  induction h with
  | nil => simp
  | @cons name m names models hm _ ih => simp [ih, hm, eq_comm]

end Schema

end RecordQuery
