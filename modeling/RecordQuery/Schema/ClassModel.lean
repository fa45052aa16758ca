import RecordQuery.Schema.PropertyType

/-!
# Classes of a schema

A class model is what a schema knows about one class after inheritance has been worked out: its own
and inherited properties, its ancestors nearest first, and its own and inherited indices.
-/

namespace RecordQuery

/-- A property of a class. -/
structure PropertyDef where
  type : PropertyType
  /-- The class of the records that a link points to. -/
  linkedClass : Option String := none
  deriving DecidableEq, Repr, Inhabited

/-- An index over properties of a class. -/
structure IndexDef where
  name : String
  properties : List String
  unique : Bool := false
  /-- Whether the index leaves out deleted records. -/
  active : Bool := false
  deriving DecidableEq, Repr, Inhabited

/-- A class with everything it inherits. -/
structure ClassModel where
  name : String
  properties : List (String × PropertyDef) := []
  /-- The ancestors. -/
  inherits : List String := []
  indices : List IndexDef := []
  /-- Abstract classes have no records of their own. -/
  isAbstract : Bool := false
  /-- Embedded classes are never queried by themselves. -/
  embedded : Bool := false
  deriving DecidableEq, Repr, Inhabited

/-- The names of a list without repetition, each at its first place. `seen` holds names that are
left out. -/
def distinctFrom {α : Type} [DecidableEq α] (seen : List α) : List α → List α
  | [] => []
  | a :: rest => if a ∈ seen then distinctFrom seen rest else a :: distinctFrom (a :: seen) rest

/-- The entries of a list without repetition, each at its first place. -/
def distinct {α : Type} [DecidableEq α] (as : List α) : List α := distinctFrom [] as

namespace ClassModel

/-- The property of a name. -/
def property? (model : ClassModel) (name : String) : Option PropertyDef :=
  Dictionary.find? name model.properties

/-- Whether a class is the class of a name or inherits from it. -/
def isA (model : ClassModel) (ancestor : String) : Bool :=
  model.name = ancestor || model.inherits.contains ancestor

theorem isA_iff {model : ClassModel} {ancestor : String} :
    model.isA ancestor = true ↔ model.name = ancestor ∨ ancestor ∈ model.inherits := by
  simp [isA]

/-- The distinct properties of the indices that keep active records unique, in index order; `none`
when there are none. -/
def activeProperties (model : ClassModel) : Option (List String) :=
  let covering := model.indices.filter fun index => index.active && index.unique
  match distinct (covering.flatMap (·.properties)) with
  | [] => none
  | properties => some properties

end ClassModel

theorem mem_distinctFrom {α : Type} [DecidableEq α] {a : α} {seen as : List α} :
    a ∈ distinctFrom seen as ↔ a ∈ as ∧ a ∉ seen := by
  induction as generalizing seen with
  | nil => simp [distinctFrom]
  | cons b rest ih => by_cases h : b ∈ seen <;> by_cases hab : a = b <;> grind [distinctFrom]

theorem mem_distinct {α : Type} [DecidableEq α] {a : α} {as : List α} :
    a ∈ distinct as ↔ a ∈ as := by simp [distinct, mem_distinctFrom]

theorem nodup_distinctFrom {α : Type} [DecidableEq α] (seen as : List α) :
    (distinctFrom seen as).Nodup := by
  induction as generalizing seen with
  | nil => simp [distinctFrom]
  | cons b rest ih =>
    unfold distinctFrom
    split
    · exact ih seen
    · exact List.nodup_cons.2 ⟨by simp [mem_distinctFrom], ih _⟩

end RecordQuery
