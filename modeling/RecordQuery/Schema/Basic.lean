import RecordQuery.Failure
import RecordQuery.Schema.ClassModel

/-!
# Schemas

A schema is a dictionary of class models by class name; each class stands under its own name.
Classes are declared with their direct parents and their own properties and indices. Registering a
declaration works out what the class inherits:

* each parent in turn hands down its properties, a later parent replacing those of an earlier one,
  and the own properties replace both;
* the ancestors are each parent followed by the ancestors of that parent, without repetition;
* the indices of the parents come before the own ones.

`Schema.ofDeclarations` takes declarations in any order. Round after round it registers those whose
parents are known, and fails with the ones that are left when a round registers none.
-/

namespace RecordQuery

/-- A class as declared. -/
structure ClassDecl where
  name : String
  /-- The direct parents. -/
  parents : List String := []
  /-- The own properties. -/
  properties : List (String × PropertyDef) := []
  /-- The own indices. -/
  indices : List IndexDef := []
  isAbstract : Bool := false
  embedded : Bool := false
  deriving DecidableEq, Repr, Inhabited

/-- What a class inherits from the parents looked at so far. -/
structure Heritage where
  properties : List (String × PropertyDef) := []
  ancestors : List String := []
  indices : List IndexDef := []

namespace Heritage

/-- Adds a name unless it is there already. -/
def addName (names : List String) (name : String) : List String :=
  if name ∈ names then names else names ++ [name]

/-- What one more parent hands down. -/
def take (h : Heritage) (parent : ClassModel) : Heritage where
  properties := Dictionary.extend h.properties parent.properties
  ancestors := (parent.name :: parent.inherits).foldl addName h.ancestors
  indices := h.indices ++ parent.indices

/-- The class of a declaration with this heritage. -/
def complete (h : Heritage) (decl : ClassDecl) : ClassModel where
  name := decl.name
  properties := Dictionary.extend h.properties decl.properties
  inherits := h.ancestors
  indices := h.indices ++ decl.indices
  isAbstract := decl.isAbstract
  embedded := decl.embedded

end Heritage

/-- The classes known by name. -/
@[ext]
structure Schema where
  classes : List (String × ClassModel) := []
  /-- A class stands under its own name. -/
  named : ∀ entry ∈ classes, entry.2.name = entry.1 := by decide
  deriving DecidableEq, Repr

namespace Schema

/-- The schema without classes. -/
def empty : Schema := {}

instance : Inhabited Schema := ⟨empty⟩

/-- The class of a name. -/
def model? (schema : Schema) (name : String) : Option ClassModel :=
  Dictionary.find? name schema.classes

/-- The schema with one more class, in place of one of the same name. -/
def put (schema : Schema) (model : ClassModel) : Schema where
  classes := Dictionary.insert model.name model schema.classes
  named entry hmem := by
    rcases Dictionary.mem_insert hmem with rfl | hmem
    · rfl
    · exact schema.named entry hmem

/-- The names of the classes, in order. -/
def classNames (schema : Schema) : List String := Dictionary.keys schema.classes

/-- The class of a name, or the rejection of the name. -/
def require (schema : Schema) (name : String) : Result ClassModel :=
  orReject (.unknownClass name) (schema.model? name)

/-- The names that some class lists among its ancestors. -/
def ancestorNames (schema : Schema) : List String :=
  schema.classes.flatMap fun (_, model) => model.inherits

/-- The classes that are neither abstract nor embedded and from which no class inherits. -/
def terminalClasses (schema : Schema) : List String :=
  (schema.classes.filter fun (name, model) =>
    !model.isAbstract && !model.embedded && !schema.ancestorNames.contains name).map (·.1)

/-- What a class inherits from its parents. -/
def heritage (schema : Schema) (className : String) (start : Heritage) :
    List String → Result Heritage
  | [] => .ok start
  | parent :: rest =>
    match schema.model? parent with
    | none => reject (.unknownParent className parent)
    | some model => heritage schema className (start.take model) rest

/-- Registers a class, in place of one of the same name. -/
def register (schema : Schema) (decl : ClassDecl) : Result Schema := do
  let inherited ← schema.heritage decl.name {} decl.parents
  return schema.put (inherited.complete decl)

/-- Whether the parents of a declaration are known. -/
def isReady (schema : Schema) (decl : ClassDecl) : Bool :=
  decl.parents.all fun parent => Dictionary.contains parent schema.classes

/-- The pending declarations whose parents are known. -/
def ready (schema : Schema) (pending : List ClassDecl) : List ClassDecl :=
  pending.filter schema.isReady

/-- The pending declarations with a parent that is not known. -/
def blocked (schema : Schema) (pending : List ClassDecl) : List ClassDecl :=
  pending.filter fun decl => !schema.isReady decl

/-- Registers declarations one after another. -/
def registerAll (schema : Schema) : List ClassDecl → Result Schema
  | [] => .ok schema
  | decl :: rest =>
    match schema.register decl with
    | .error e => .error e
    | .ok next => registerAll next rest

/-- Registers pending declarations round after round. -/
def settle (schema : Schema) (pending : List ClassDecl) : Result Schema :=
  if pending.isEmpty then .ok schema
  else
    match registerAll schema (schema.ready pending) with
    | .error e => .error e
    | .ok next =>
      if (schema.blocked pending).length < pending.length then
        settle next (schema.blocked pending)
      else reject (.unresolvedParents ((schema.blocked pending).map (·.name)))
  termination_by pending.length

/-- The schema of a list of declarations in any order. -/
def ofDeclarations (decls : List ClassDecl) : Result Schema := settle empty decls

section Found

variable {schema : Schema} {name : String} {model : ClassModel}

/-- The class of a name has this name. -/
theorem name_of_model? (h : schema.model? name = some model) : model.name = name :=
  schema.named (name, model) (Dictionary.mem_of_find? h)

/-- The class that is found under the name of a class is this class. -/
theorem require_name_of_model? (h : schema.model? name = some model) :
    schema.require model.name = .ok model := by
  rw [name_of_model? h, require, h]
  rfl

end Found

end Schema

/-- The property of a name, or the rejection of the name. -/
def ClassModel.requireProperty (model : ClassModel) (name : String) : Result PropertyDef :=
  orReject (.unknownProperty name model.name) (model.property? name)

end RecordQuery
