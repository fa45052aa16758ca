import RecordQuery.Selection.Check
import RecordQuery.Text.Split

/-!
# Projections

A projection says which properties of a row come back.

* Properties of a class may be given as dotted paths through links: `source.name` is the property
  `name` of the record that `source` links to. `checkPath` walks a path through the schema.
  Paths are gathered in a `PathTree`, so that paths with a common start share one group, which is
  written `source:{name}`. A path that is wanted by itself as well is written beside its group.
* Without a class only plain names and identity attributes are accepted.
* `nested` expands every linked record to a depth.
-/

namespace RecordQuery

/-- The paths that are wanted, by their first names in the order of the first mention. -/
inductive PathTree where
  | node (wanted : Bool) (children : List (String × PathTree))
  deriving Inhabited

namespace PathTree

/-- No path. -/
def empty : PathTree := .node false []

/-- Changes the entry of a name, or adds a changed empty tree behind the others. -/
def change (name : String) (f : PathTree → PathTree) :
    List (String × PathTree) → List (String × PathTree)
  | [] => [(name, f empty)]
  | (n, tree) :: rest => if n = name then (n, f tree) :: rest else (n, tree) :: change name f rest

/-- Adds a path. -/
def add : List String → PathTree → PathTree
  | [], .node _ children => .node true children
  | name :: path, .node wanted children => .node wanted (change name (add path) children)

mutual

/-- The text of a name and the paths below it. -/
def renderEntry (name : String) : PathTree → String
  | .node wanted children =>
    let inner := renderEach children
    let group := name ++ ":\x7b" ++ ", ".intercalate inner ++ "\x7d"
    if inner.isEmpty then name else if wanted then name ++ ", " ++ group else group
  termination_by structural tree => tree

/-- The texts of the entries of a tree. -/
def renderEach : List (String × PathTree) → List String
  | [] => []
  | (name, tree) :: rest => renderEntry name tree :: renderEach rest
  termination_by structural entries => entries

end

/-- The text of a tree. -/
def render : PathTree → String
  | .node _ children => ", ".intercalate (renderEach children)

end PathTree

namespace Projection

/-- The projection of every property. -/
def everything : String := "*"

/-- The parts of a dotted path. -/
def pathOf (text : String) : List String := Text.segments '.' text

/-- Checks a path from a class: each part is a property of the class reached so far, all but the
last are links with a class, and the last may be an identity attribute. -/
def checkPath (schema : Schema) (text : String) : ClassModel → List String → Result Unit
  | _, [] => .ok ()
  | model, [last] =>
    if isIdentityAttribute last then .ok () else (model.requireProperty last).map fun _ => ()
  | model, part :: rest =>
    match model.requireProperty part with
    | .error e => .error e
    | .ok def_ =>
      match if def_.type.isLink then def_.linkedClass else none with
      | none => reject (.notALink part model.name text)
      | some linkedClass =>
        match schema.require linkedClass with
        | .error e => .error e
        | .ok linked => checkPath schema text linked rest

/-- Checks a list of dotted paths. -/
def checkPaths (schema : Schema) (model : ClassModel) : List String → Result Unit
  | [] => .ok ()
  | text :: rest =>
    match checkPath schema text model (pathOf text) with
    | .error e => .error e
    | .ok () => checkPaths schema model rest

/-- The tree of a list of dotted paths. -/
def treeOf (paths : List String) : PathTree :=
  paths.foldl (fun tree text => tree.add (pathOf text)) .empty

/-- The projection of dotted paths from a class. -/
def ofPaths (schema : Schema) (model : ClassModel) (paths : List String) : Result String :=
  if paths.isEmpty then reject .noProperties
  else (checkPaths schema model paths).map fun () => (treeOf paths).render

/-- Whether a name is made of ASCII letters, digits and underscores and does not start with a
digit. -/
def isPlainName (name : String) : Bool :=
  match name.toList with
  | [] => false
  | first :: rest =>
    (first :: rest).all (fun c => c.isAlphanum || c = '_') && !first.isDigit

/-- The first name that is neither plain nor an identity attribute. -/
def invalidName? (names : List String) : Option String :=
  names.find? fun name => !(isPlainName name || isIdentityAttribute name)

/-- The projection of names without a class to check them by. -/
def ofNames (names : List String) : Result String :=
  if names.isEmpty then reject .noProperties
  else
    match invalidName? names with
    | some name => reject (.invalidPropertyName name)
    | none => .ok (", ".intercalate names)

/-- What every level of an expansion selects. -/
def level (withoutHistory : Bool) : String :=
  "*, @rid, @class" ++ (if withoutHistory then ", !history" else "")

/-- The projection that expands linked records to a depth. -/
def nested (withoutHistory : Bool) : Nat → String
  | 0 => level withoutHistory
  | depth + 1 => level withoutHistory ++ ", *:\x7b" ++ nested withoutHistory depth ++ "\x7d"

end Projection

end RecordQuery
