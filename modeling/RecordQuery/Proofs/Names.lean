import RecordQuery.Proofs.Lowering

/-!
# The names in a selection

The text of a selection carries three kinds of names from outside: those of classes, of edges and of
properties. Which texts can come out of rendering depends on what these names look like, so
statements about texts speak of all of them at once.

* `Filter.names`, `Selection.names` — the names at every level, those of nested selections included.
* `Selection.mem_names_effectiveFilter` — the condition that records are active brings in one more
  name, that of the deletion time.
* `Selection.names_of_ofRequest` — an accepted request carries no name but those of its schema and of
  the identity attributes.
-/

namespace RecordQuery

/-- The class that a target names. -/
def Target.names : Target → List String
  | .named className => [className]
  | .records _ => []

/-- The edges that a traversal follows. -/
def Traversal.names (traversal : Option Traversal) : List String := traversal.elim [] edges

mutual

/-- The names in a filter. -/
def Filter.names : Filter → List String
  | .leaf comparison => Comparison.names comparison
  | .all children => Filter.namesEach children
  | .any children => Filter.namesEach children
  termination_by structural f => f

/-- The names in a list of filters. -/
def Filter.namesEach : List Filter → List String
  | [] => []
  | child :: rest => Filter.names child ++ Filter.namesEach rest
  termination_by structural fs => fs

/-- The names in a comparison. -/
def Comparison.names : Comparison → List String
  | ⟨property, _, operand, _⟩ => property :: Operand.names operand
  termination_by structural c => c

/-- The names in an operand. -/
def Operand.names : Operand → List String
  | .literal _ => []
  | .selection selection => Selection.names selection
  termination_by structural o => o

/-- The names in a selection. -/
def Selection.names : Selection → List String
  | ⟨target, none, _, traversal⟩ => target.names ++ Traversal.names traversal
  | ⟨target, some filter, _, traversal⟩ =>
    target.names ++ Traversal.names traversal ++ Filter.names filter
  termination_by structural s => s

end

namespace Filter

/-- The names in several filters are those in one after the other. -/
theorem namesEach_eq_flatMap (fs : List Filter) : namesEach fs = fs.flatMap names := by
  induction fs with
  | nil => rfl
  | cons f rest ih => rw [namesEach, ih, List.flatMap_cons]

theorem collects_names : Collects names where
  all children := by rw [names, namesEach_eq_flatMap]
  any children := by rw [names, namesEach_eq_flatMap]

theorem mem_names_all {name : String} {children : List Filter} :
    name ∈ (Filter.all children).names ↔ ∃ f ∈ children, name ∈ f.names := by
  rw [collects_names.all, List.mem_flatMap]

theorem mem_names_any {name : String} {children : List Filter} :
    name ∈ (Filter.any children).names ↔ ∃ f ∈ children, name ∈ f.names := by
  rw [collects_names.any, List.mem_flatMap]

theorem names_literal (property : String) (operator : Operator) (value : Value) (negated : Bool) :
    (Filter.leaf ⟨property, operator, .literal value, negated⟩).names = [property] := by
  rw [names, Comparison.names, Operand.names]

/-- A comparison with a selection names its property and what the selection names. -/
theorem names_selection (property : String) (operator : Operator) (s : Selection)
    (negated : Bool) :
    (Filter.leaf ⟨property, operator, .selection s, negated⟩).names = property :: s.names := by
  rw [names, Comparison.names, Operand.names]

theorem names_active : active.names = [deletionTime] := names_literal ..

theorem mem_names_andAlso {name : String} {f g : Filter} :
    name ∈ (f.andAlso g).names ↔ name ∈ f.names ∨ name ∈ g.names := by
  cases f <;> simp [andAlso, mem_names_all, or_and_right, exists_or]

end Filter

namespace Selection

/-- A name in a selection is its class, one of its edges, or in its filter. -/
theorem mem_names {name : String} {s : Selection} :
    name ∈ s.names ↔ name ∈ s.target.names ∨ name ∈ Traversal.names s.traversal ∨
      ∃ f ∈ s.filter, name ∈ f.names := by
  obtain ⟨target, filter, history, traversal⟩ := s
  cases filter <;> simp [names]

/-- The condition that records are active brings in the name of the deletion time, and no other
name. -/
theorem mem_names_effectiveFilter {s : Selection} {f : Filter} {name : String}
    (hf : f ∈ s.effectiveFilter) (hname : name ∈ f.names) :
    name ∈ s.names ∨ name = deletionTime := by
  obtain ⟨target, filter, history, traversal⟩ := s
  rw [mem_names]
  -- without a filter only the deletion test can bring in the name
  cases filter with
  | none =>
    cases history with
    | true => simp [effectiveFilter] at hf
    | false =>
      obtain rfl : Filter.active = f := by simpa [effectiveFilter] using hf
      rw [Filter.names_active] at hname
      exact .inr (List.mem_singleton.1 hname)
  | some g =>
    cases history with
    | true =>
      obtain rfl : g = f := by simpa [effectiveFilter] using hf
      exact .inl (.inr (.inr ⟨g, rfl, hname⟩))
    | false =>
      obtain rfl : g.andAlso Filter.active = f := by simpa [effectiveFilter] using hf
      rw [Filter.mem_names_andAlso, Filter.names_active] at hname
      rcases hname with hname | hname
      · exact .inl (.inr (.inr ⟨g, rfl, hname⟩))
      · exact .inr (List.mem_singleton.1 hname)

end Selection

-- ---------------------------------------------------------------------------
-- Names that a schema knows
-- ---------------------------------------------------------------------------

/-- The names of the classes of a schema and of their properties. -/
def Schema.names (schema : Schema) : List String :=
  schema.classes.flatMap fun (name, model) =>
    name :: model.name :: Dictionary.keys model.properties

namespace Schema

variable {schema : Schema} {name : String} {model : ClassModel}

theorem mem_names_of_model? (h : schema.model? name = some model) : name ∈ schema.names :=
  List.mem_flatMap.2 ⟨_, Dictionary.mem_of_find? h, List.mem_cons_self ..⟩

theorem className_mem_names (h : schema.model? name = some model) : model.name ∈ schema.names :=
  List.mem_flatMap.2 ⟨_, Dictionary.mem_of_find? h, by simp⟩

/-- The properties of a registered class are known. -/
theorem property_mem_names (h : schema.model? name = some model) {property : String}
    {def_ : PropertyDef} (hproperty : model.property? property = some def_) :
    property ∈ schema.names := by
  refine List.mem_flatMap.2 ⟨_, Dictionary.mem_of_find? h, ?_⟩
  have hkey : property ∈ Dictionary.keys model.properties := by
    rw [← Dictionary.find?_isSome_iff]
    exact Option.isSome_of_mem hproperty
  simp [hkey]

end Schema

/-- Every record has an id and a class, and these are the only attributes that no class declares. -/
theorem isIdentityAttribute_iff {name : String} :
    isIdentityAttribute name = true ↔ name = "@rid" ∨ name = "@class" := by
  rw [isIdentityAttribute, Dictionary.contains, Dictionary.find?_isSome_iff]
  simp [Dictionary.keys, identityAttributes]

/-- What is compared is an identity attribute, each of its own type, or a property of the class with
the type that it was declared with. -/
theorem ClassModel.comparedType_eq_ok {model : ClassModel} {property : String}
    {type : PropertyType} (h : model.comparedType property = .ok type) :
    (property = "@rid" ∧ type = .link) ∨ (property = "@class" ∧ type = .string) ∨
      ∃ def_, model.property? property = some def_ ∧ def_.type = type := by
  -- the identity attributes come before the properties of the class
  rw [comparedType] at h
  cases hidentity : Dictionary.find? property identityAttributes with
  | some found =>
    rw [hidentity] at h
    obtain rfl := Except.ok.inj h
    have hmem := Dictionary.mem_of_find? hidentity
    have hcases : (property = "@rid" ∧ found = .link) ∨ (property = "@class" ∧ found = .string) := by
      simpa [identityAttributes] using hmem
    exact hcases.imp_right .inl
  | none =>
    rw [hidentity] at h
    obtain ⟨def_, hdef, htype⟩ := map_eq_ok.1 h
    exact .inr (.inr ⟨def_, orReject_eq_ok.1 hdef, htype⟩)

namespace Request

variable {schema : Schema} {limits : Limits}

/-- An accepted traversal follows the edges of the request, and each is a class of the schema. -/
theorem edges_of_traversal {r : Request} {t : Traversal}
    (h : r.traversal schema limits = .ok (some t)) :
    t.edges = r.edges.getD [] ∧ ∀ edge ∈ t.edges, (schema.model? edge).isSome := by
  obtain ⟨hedges, -, ht⟩ := traversal_eq_some.1 h
  have hsame : t.edges = r.edges.getD [] := by
    cases ht <;> rfl
  rw [hsame]
  exact ⟨rfl, hedges⟩

end Request

/-- Whether a name may stand in a statement over a schema: a name that the schema knows, or an
identity attribute. -/
def Schema.Knows (schema : Schema) (name : String) : Prop :=
  name ∈ schema.names ∨ isIdentityAttribute name = true

/-- Whatever can be compared for a class is an identity attribute or a property of the class, so the
schema knows it. -/
theorem Schema.knows_of_comparedType {schema : Schema} {model : ClassModel} {key property : String}
    {type : PropertyType} (hmodel : schema.model? key = some model)
    (htype : model.comparedType property = .ok type) : schema.Knows property := by
  rcases ClassModel.comparedType_eq_ok htype with ⟨hid, -⟩ | ⟨hclass, -⟩ | ⟨def_, hdef, -⟩
  · exact .inr (isIdentityAttribute_iff.2 (.inl hid))
  · exact .inr (isIdentityAttribute_iff.2 (.inr hclass))
  · exact .inl (property_mem_names hmodel hdef)

/-- An accepted request carries no names but those that the schema knows, at any level. So a
condition on the names of the schema is one on every text that is written. -/
theorem Selection.names_of_ofRequest {schema : Schema} {limits : Limits} {r : Request}
    {s : Selection} (h : Selection.ofRequest schema limits r = .ok s) :
    ∀ name ∈ s.names, schema.Knows name := by
  refine (Selection.ofRequest_induction
    (P := fun model _ f => ∀ key, schema.model? key = some model →
      ∀ name ∈ f.names, schema.Knows name)
    (Q := fun _ s => ∀ name ∈ s.names, schema.Knows name) ?_ ?_ ?_ ?_ ?_ ?_).2 r s h
  -- a literal brings in its property only
  · intro model property operator value negated type htype _ key hmodel name hname
    rw [Filter.names_literal, List.mem_singleton] at hname
    subst hname
    exact Schema.knows_of_comparedType hmodel htype
  -- a selection brings in its property and what its own request was checked for
  · intro model property operator request s negated type ih htype _ key hmodel name hname
    rw [Filter.names_selection, List.mem_cons] at hname
    rcases hname with rfl | hname
    · exact Schema.knows_of_comparedType hmodel htype
    · exact ih name hname
  · intro model cs fs ih key hmodel name hname
    obtain ⟨f, hf, hname⟩ := Filter.mem_names_all.1 hname
    obtain ⟨c, -, hcf⟩ := exists_of_forall₂_of_mem ih hf
    exact hcf key hmodel name hname
  · intro model cs fs ih key hmodel name hname
    obtain ⟨f, hf, hname⟩ := Filter.mem_names_any.1 hname
    obtain ⟨c, -, hcf⟩ := exists_of_forall₂_of_mem ih hf
    exact hcf key hmodel name hname
  · intro r texts ids _ _ _ _ _ name hname
    simp [Selection.ofRecords, Selection.names, Target.names, Traversal.names] at hname
  · intro r className model filter traversal _ _ hmodel ih htraversal name hname
    rcases Selection.mem_names.1 hname with hclass | hedge | ⟨f, hf, hinner⟩
    · rw [Target.names, List.mem_singleton] at hclass
      exact .inl (hclass ▸ Schema.className_mem_names hmodel)
    · cases traversal with
      | none => simp [Traversal.names] at hedge
      | some t =>
        obtain ⟨-, hknown⟩ := Request.edges_of_traversal htraversal
        obtain ⟨edgeModel, hmodel⟩ := Option.isSome_iff_exists.1 (hknown name hedge)
        exact .inl (Schema.mem_names_of_model? hmodel)
    -- dropping an empty filter drops names only
    · generalize r.filters = criteria at ih
      have hkept : Request.keepFilter filter = some f := hf
      obtain ⟨rfl, -⟩ := Request.keepFilter_eq_some.1 hkept
      cases ih with
      | some ih =>
        exact ih className hmodel name hinner

end RecordQuery
