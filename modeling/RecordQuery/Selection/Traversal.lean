import RecordQuery.Dictionary

/-!
# Traversals

A traversal turns the records that a condition selects into the roots of a walk through the graph.

* A *neighborhood* matches everything within a number of steps along edges of the given classes.
* A *walk* follows edges in one direction up to a depth.

The texts of this module are given the condition of the roots as a text, so they say how a
traversal is written and nothing about what the condition means.
-/

namespace RecordQuery

/-- The direction in which edges are followed. -/
inductive Direction where
  | incoming
  | outgoing
  | both
  deriving DecidableEq, Repr, Inhabited

namespace Direction

/-- The name of a direction. -/
def name : Direction → String
  | .incoming => "in"
  | .outgoing => "out"
  | .both => "both"

/-- The names with their meaning. -/
def names : List (String × Direction) := [("in", .incoming), ("out", .outgoing), ("both", .both)]

end Direction

/-- A traversal from the selected records. -/
inductive Traversal where
  | neighborhood (edges : List String) (direction : Direction) (depth : UInt32)
  | walk (edges : List String) (direction : Direction) (maxDepth : UInt32)
  deriving DecidableEq, Repr, Inhabited

namespace Traversal

/-- The classes of the edges that are followed. -/
def edges : Traversal → List String
  | .neighborhood edges _ _ => edges
  | .walk edges _ _ => edges

/-- The call that follows edges of the given classes. -/
def edgeCall (direction : Direction) (edges : List String) : String :=
  direction.name ++ "(" ++ ", ".intercalate (edges.map fun edge => "'" ++ edge ++ "'") ++ ")"

/-- The records of a class that meet a condition. -/
def selectText (className : String) (condition : Option String) : String :=
  match condition with
  | some condition => "SELECT * FROM " ++ className ++ " WHERE " ++ condition
  | none => "SELECT * FROM " ++ className

/-- The root of a pattern. A condition that is not one group already is put between parentheses. -/
def rootText (className : String) (condition : Option String) (grouped : Bool) : String :=
  match condition with
  | some condition =>
    "\x7bclass: " ++ className ++ ", WHERE: " ++
      (if grouped then condition else "(" ++ condition ++ ")") ++ "\x7d"
  | none => "\x7bclass: " ++ className ++ "\x7d"

/-- The text of a selection of a class: without a traversal, or with one around it. -/
def text (traversal : Option Traversal) (className : String) (condition : Option String)
    (grouped : Bool) : String :=
  match traversal with
  | none => selectText className condition
  | some (.neighborhood edges direction depth) =>
    "SELECT * FROM (MATCH " ++ rootText className condition grouped ++ "." ++
      edgeCall direction edges ++ "\x7bWHILE: ($depth < " ++ toString depth ++
      ")\x7d RETURN DISTINCT $pathElements)"
  | some (.walk edges direction maxDepth) =>
    "TRAVERSE " ++ edgeCall direction edges ++ " FROM (" ++ selectText className condition ++
      ") MAXDEPTH " ++ toString maxDepth

section Texts

variable (edges : List String) (direction : Direction) (depth : UInt32)
  (className condition : String) (grouped : Bool)

theorem text_walk_none : text (some (.walk edges direction depth)) className none grouped =
    "TRAVERSE " ++ edgeCall direction edges ++ " FROM (SELECT * FROM " ++ className ++
      ") MAXDEPTH " ++ toString depth := by
  have hfrom : " FROM (SELECT * FROM " = " FROM (" ++ "SELECT * FROM " := by decide
  unfold text selectText
  rw [hfrom]
  simp only [String.append_assoc]

theorem text_walk_some :
    text (some (.walk edges direction depth)) className (some condition) grouped =
      "TRAVERSE " ++ edgeCall direction edges ++ " FROM (SELECT * FROM " ++ className ++
        " WHERE " ++ condition ++ ") MAXDEPTH " ++ toString depth := by
  have hfrom : " FROM (SELECT * FROM " = " FROM (" ++ "SELECT * FROM " := by decide
  unfold text selectText
  rw [hfrom]
  simp only [String.append_assoc]

theorem text_neighborhood_none :
    text (some (.neighborhood edges direction depth)) className none grouped =
      "SELECT * FROM (MATCH \x7bclass: " ++ className ++ "\x7d." ++ edgeCall direction edges ++
        "\x7bWHILE: ($depth < " ++ toString depth ++ ")\x7d RETURN DISTINCT $pathElements)" := by
  have hmatch : "SELECT * FROM (MATCH \x7bclass: " = "SELECT * FROM (MATCH " ++ "\x7bclass: " := by
    decide
  have hroot : "\x7d." = "\x7d" ++ "." := by decide
  unfold text rootText
  rw [hmatch, hroot]
  simp only [String.append_assoc]

/-- In the root of a pattern a condition stands between one pair of parentheses. -/
theorem text_neighborhood_some :
    text (some (.neighborhood edges direction depth)) className (some condition) grouped =
      "SELECT * FROM (MATCH \x7bclass: " ++ className ++ ", WHERE: " ++
        (if grouped then condition else "(" ++ condition ++ ")") ++ "\x7d." ++
        edgeCall direction edges ++ "\x7bWHILE: ($depth < " ++ toString depth ++
        ")\x7d RETURN DISTINCT $pathElements)" := by
  have hmatch : "SELECT * FROM (MATCH \x7bclass: " = "SELECT * FROM (MATCH " ++ "\x7bclass: " := by
    decide
  have hroot : "\x7d." = "\x7d" ++ "." := by decide
  unfold text rootText
  rw [hmatch, hroot]
  simp only [String.append_assoc]

end Texts

end Traversal

end RecordQuery
