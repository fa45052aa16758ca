import RecordQuery.Proofs.Admission
import RecordQuery.Proofs.Wrapping

/-!
# The names of a class query

The text of a query is put together from names, and a query for the records of a class takes none of
them on trust: classes, edges and properties are names of the schema, and a nested request brings a
class that its own names are looked up in.

* `Projection.Walks` — the paths that lead through links to a property, and
  `Projection.checkPath_eq_ok_iff` — these are the paths that are accepted.
* `ClassModel.Nests` — where a nested selection may stand.
* `Selection.IsKnown` — what is known of the names at one level.
* `Query.isKnown_of_ofRequest` — it holds at every level of an accepted request, and of its options.
-/

namespace RecordQuery

-- ---------------------------------------------------------------------------
-- Properties
-- ---------------------------------------------------------------------------

namespace ClassModel

/-- A name that records of the class can be asked for: a property or an identity attribute. -/
def HasName (model : ClassModel) (name : String) : Prop :=
  name = "@rid" ∨ name = "@class" ∨ ∃ def_, model.property? name = some def_

/-- A property of the given type. -/
def HasType (model : ClassModel) (property : String) (type : PropertyType) : Prop :=
  ∃ def_, model.property? property = some def_ ∧ def_.type = type

/-- Where a nested selection may stand, and with which operator. -/
inductive Nests (model : ClassModel) : String → Operator → Prop where
  | link {property operator} (hproperty : property = "@rid" ∨ model.HasType property .link)
      (hoperator : operator = .equal ∨ operator = .isIn) : Nests model property operator
  | links {property operator}
      (hproperty : model.HasType property .linkList ∨ model.HasType property .linkSet)
      (hoperator : operator = .containsAll ∨ operator = .containsAny) :
      Nests model property operator
  | any {property operator} (hproperty : model.HasType property .any) :
      Nests model property operator

variable {model : ClassModel} {property : String} {type : PropertyType}

/-- What has a type to be compared with is a property or an identity attribute. -/
theorem hasName_of_comparedType (h : model.comparedType property = .ok type) :
    model.HasName property := by
  rcases comparedType_eq_ok h with ⟨hid, -⟩ | ⟨hclass, -⟩ | ⟨def_, hdef, -⟩
  · exact .inl hid
  · exact .inr (.inl hclass)
  · exact .inr (.inr ⟨def_, hdef⟩)

/-- Types that no identity attribute has are those of properties. -/
theorem hasType_of_comparedType (h : model.comparedType property = .ok type) (hlink : type ≠ .link)
    (hstring : type ≠ .string) : model.HasType property type := by
  rcases comparedType_eq_ok h with ⟨-, heq⟩ | ⟨-, heq⟩ | hdef
  · exact absurd heq hlink
  · exact absurd heq hstring
  · exact hdef

/-- An operator that takes a selection for the type of a property may have one nested there. One
case for each type of property that takes any. -/
theorem nests_of_allowsSelection {operator : Operator}
    (htype : model.comparedType property = .ok type)
    (hallowed : operator.allowsSelection type = true) : model.Nests property operator := by
  cases type with
  -- of the attributes only the record id has the type of a link
  | link =>
    have hoperator : operator = .equal ∨ operator = .isIn := by
      simpa [Operator.allowsSelection] using hallowed
    refine .link ?_ hoperator
    rcases comparedType_eq_ok htype with ⟨hid, -⟩ | ⟨-, hstring⟩ | hdef
    · exact .inl hid
    · cases hstring
    · exact .inr hdef
  | linkList =>
    have hoperator : operator = .containsAll ∨ operator = .containsAny := by
      simpa [Operator.allowsSelection] using hallowed
    exact .links (.inl (hasType_of_comparedType htype (by decide) (by decide))) hoperator
  | linkSet =>
    have hoperator : operator = .containsAll ∨ operator = .containsAny := by
      simpa [Operator.allowsSelection] using hallowed
    exact .links (.inr (hasType_of_comparedType htype (by decide) (by decide))) hoperator
  | any => exact .any (hasType_of_comparedType htype (by decide) (by decide))
  | _ => simp [Operator.allowsSelection] at hallowed

end ClassModel

-- ---------------------------------------------------------------------------
-- Levels
-- ---------------------------------------------------------------------------

/-- A comparison of something that records of the class have, with a nested selection only where one
may stand. -/
structure Comparison.IsKnown (model : ClassModel) (c : Comparison) : Prop where
  property : model.HasName c.property
  nested : ∀ s, c.operand = .selection s → model.Nests c.property c.operator

/-- An accepted comparison is of something that records of the class have. -/
theorem Comparison.Admitted.isKnown {limits : Limits} {model : ClassModel} {type : PropertyType}
    {c : Comparison} (h : c.Admitted limits model type) : c.IsKnown model := by
  refine ⟨ClassModel.hasName_of_comparedType h.comparedType, fun s hs => ?_⟩
  cases h with
  | literal _ _ => cases hs
  | selection htype hallowed => exact ClassModel.nests_of_allowsSelection htype hallowed

/-- The names at one level of a selection are known. -/
structure Selection.IsKnown (schema : Schema) (s : Selection) : Prop where
  /-- The class is one of the schema, and what is compared belongs to it. -/
  comparisons : ∀ name, s.target = .named name → ∃ model, schema.HasClass name model ∧
    ∀ c ∈ s.filterComparisons, c.IsKnown model
  /-- The class is found under its name. -/
  registered : ∀ name, s.target = .named name → (schema.model? name).isSome
  /-- Explicit records are neither compared with anything nor walked from. -/
  records : ∀ ids, s.target = .records ids → s.filter = none ∧ s.traversal = none
  edges : ∀ t ∈ s.traversal, ∀ edge ∈ t.edges, (schema.model? edge).isSome
  /-- Nothing but the time of deletion is compared besides. -/
  condition : s.comparisons =
    s.filterComparisons ++ if s.history then [] else [Comparison.isNull deletionTime]

/-- An accepted selection names only what is known. -/
theorem Selection.IsAdmitted.isKnown {schema : Schema} {limits : Limits} {s : Selection}
    (h : s.IsAdmitted schema limits) : s.IsKnown schema where
  comparisons name hname := by
    obtain ⟨model, hclass, hadmitted⟩ := h.comparisons name hname
    refine ⟨model, hclass, fun c hc => ?_⟩
    obtain ⟨type, htype⟩ := hadmitted c hc
    exact htype.isKnown
  registered name hname := by
    obtain ⟨model, hclass, -⟩ := h.comparisons name hname
    rw [Schema.hasClass_iff.1 hclass]
    rfl
  records := h.records
  edges := h.edges
  condition := Selection.comparisons_eq s

-- ---------------------------------------------------------------------------
-- Paths
-- ---------------------------------------------------------------------------

namespace Projection

variable {schema : Schema} {model : ClassModel}

/-- A path that leads from a class through links, each to records of a class of the schema, and ends
in a property or an identity attribute. -/
inductive Walks (schema : Schema) : ClassModel → List String → Prop where
  | identity {model name} (hname : name = "@rid" ∨ name = "@class") : Walks schema model [name]
  | property {model name def_} (hdef : model.property? name = some def_) :
      Walks schema model [name]
  | link {model name def_ className linked rest} (hdef : model.property? name = some def_)
      (hlink : def_.type = .link ∨ def_.type = .linkList ∨ def_.type = .linkSet)
      (hclass : def_.linkedClass = some className)
      (hlinked : schema.model? className = some linked) (hrest : Walks schema linked rest) :
      Walks schema model (name :: rest)

theorem Walks.ne_nil {path : List String} (h : Walks schema model path) : path ≠ [] := by
  cases h <;> exact List.cons_ne_nil _ _

theorem isLink_iff {type : PropertyType} :
    type.isLink = true ↔ type = .link ∨ type = .linkList ∨ type = .linkSet := by
  cases type <;> simp [PropertyType.isLink]

/-- A path that passes the check leads somewhere, from property to property through the classes that
they link to. -/
theorem walks_of_checkPath {text : String} {path : List String} (hne : path ≠ [])
    (h : checkPath schema text model path = .ok ()) : Walks schema model path := by
  -- one case for each way through the check; those in which it fails are left out by the result
  fun_induction checkPath schema text model path with
  | case1 => exact absurd rfl hne
  | case2 model last hidentity => exact .identity (isIdentityAttribute_iff.1 hidentity)
  | case3 model last =>
    obtain ⟨def_, hdef, -⟩ := map_eq_ok.1 h
    exact .property (orReject_eq_ok.1 hdef)
  | case4 => cases h
  | case5 => cases h
  | case6 => cases h
  | case7 model part rest hrest def_ hdef className hlinked linked hrequire ih =>
    have hrest : rest ≠ [] := fun hnil => hrest hnil
    have hlink : def_.type.isLink = true ∧ def_.linkedClass = some className := by
      split at hlinked
      · next hlink => exact ⟨hlink, hlinked⟩
      · cases hlinked
    exact .link (orReject_eq_ok.1 hdef) (isLink_iff.1 hlink.1) hlink.2
      (orReject_eq_ok.1 hrequire) (ih hrest h)

/-- A path that leads somewhere passes the check. -/
theorem checkPath_of_walks {text : String} {path : List String} (h : Walks schema model path) :
    checkPath schema text model path = .ok () := by
  induction h with
  | identity hname =>
    rw [checkPath, if_pos (isIdentityAttribute_iff.2 hname)]
  | property hdef =>
    rw [checkPath, ClassModel.requireProperty, hdef]
    split <;> rfl
  | @link model name def_ className linked rest hdef hlink hclass hlinked hrest ih =>
    have hmore : rest = [] → False := hrest.ne_nil
    rw [checkPath.eq_3 _ _ _ _ _ hmore, ClassModel.requireProperty, hdef]
    simp only [orReject, isLink_iff.2 hlink, if_true, hclass, Schema.require, hlinked, ih]

/-- The paths that are accepted are those that lead somewhere. -/
theorem checkPath_eq_ok_iff {text : String} {path : List String} (hne : path ≠ []) :
    checkPath schema text model path = .ok () ↔ Walks schema model path :=
  ⟨walks_of_checkPath hne, checkPath_of_walks⟩

/-- Every path has a part, as the empty text is one. -/
theorem pathOf_ne_nil (path : String) : pathOf path ≠ [] := by
  rw [pathOf, Text.segments, ne_eq, List.map_eq_nil_iff]
  exact Text.segmentsOf_ne_nil '.' path.toList

/-- The paths of an accepted projection lead somewhere. -/
theorem walks_of_ofPaths {paths : List String} {text : String}
    (h : ofPaths schema model paths = .ok text) :
    ∀ path ∈ paths, Walks schema model (pathOf path) := by
  obtain ⟨-, hchecked, -⟩ := ofPaths_eq_ok.1 h
  exact fun path hpath => (checkPath_eq_ok_iff (pathOf_ne_nil path)).1 (hchecked path hpath)

end Projection

-- ---------------------------------------------------------------------------
-- Accepted requests
-- ---------------------------------------------------------------------------

variable {schema : Schema} {limits : Limits}

namespace Request

/-- Without outer options a request is its own inner request. -/
theorem inner_eq_self {r : Request} (h : r.hasOuterOptions = false) : r.inner = r := by
  obtain ⟨target, filters, neighbors, style, edges, direction, depth, returnProperties, orderBy,
    orderByDirection, skip, limit, history, count⟩ := r
  simp only [hasOuterOptions, Bool.or_eq_false_iff, Option.isSome_eq_false_iff,
    Option.isNone_iff_eq_none, bne_eq_false_iff_eq] at h
  obtain ⟨⟨⟨⟨⟨⟨rfl, rfl⟩, rfl⟩, rfl⟩, rfl⟩, rfl⟩, rfl⟩ := h
  rfl

/-- A request that is accepted as a selection has no outer options. -/
theorem hasOuterOptions_of_ofRequest {r : Request} {s : Selection}
    (h : Selection.ofRequest schema limits r = .ok s) : r.hasOuterOptions = false := by
  cases htarget : r.target with
  | records texts => exact ((Selection.ofRequest_records_eq_ok htarget).1 h).1
  | named className => exact ((Selection.ofRequest_named_eq_ok htarget).1 h).1

/-- Requests that are nested in an accepted one carry no outer options. -/
theorem inner_eq_self_of_nested {r : Request} {s : Selection}
    (h : Selection.ofRequest schema limits r.inner = .ok s) :
    ∀ nested ∈ r.levels.tail, nested.inner = nested := by
  intro nested hnested
  have hmem : nested ∈ r.inner.levels := by
    rw [r.levels_inner]
    exact List.mem_cons_of_mem _ hnested
  have hlevels := (Selection.levels_of_ofRequest h).flip
  obtain ⟨inside, -, hinside⟩ := exists_of_forall₂_of_mem hlevels hmem
  exact inner_eq_self (hasOuterOptions_of_ofRequest hinside)

end Request

namespace Query

/-- The paths of the options of a request for a class lead somewhere. Those of the order are checked
in the same way as those that are asked for. -/
theorem walks_of_options {r : Request} {model : ClassModel} {projection : Option String}
    (horder : checkOrder schema (some model) (r.orderBy.getD []) = .ok ())
    (hprojection : projection? schema (some model) r = .ok projection) :
    ∀ path ∈ r.orderBy.getD [] ++ r.returnProperties.getD [],
      Projection.Walks schema model (Projection.pathOf path) := by
  intro path hpath
  rcases List.mem_append.1 hpath with hpath | hpath
  -- an empty order is not looked at, any other one is checked as a projection
  · rw [checkOrder] at horder
    split at horder
    · next hempty =>
      rw [List.isEmpty_iff.1 hempty] at hpath
      cases hpath
    · obtain ⟨text, htext, -⟩ := map_eq_ok.1 horder
      exact Projection.walks_of_ofPaths htext path hpath
  · cases hproperties : r.returnProperties with
    | none =>
      rw [hproperties] at hpath
      cases hpath
    | some names =>
      rw [hproperties] at hpath
      rw [projection?, hproperties] at hprojection
      obtain ⟨text, htext, -⟩ := map_eq_ok.1 hprojection
      exact Projection.walks_of_ofPaths htext path hpath

/-- An accepted request for the records of a class takes its names from the schema: at every level
the class, the edges and the properties that are compared, and with the outer options, which stand
at the outermost level only, the paths to the properties that they name. -/
theorem isKnown_of_ofRequest {r : Request} {q : Query} {className : String}
    (htarget : r.target = .named className) (h : ofRequest schema limits r = .ok q) :
    ∃ model, schema.model? className = some model ∧ q.selection.target = .named model.name ∧
      (∀ s ∈ q.selection.levels, s.IsKnown schema) ∧
      (∀ nested ∈ r.levels.tail, nested.inner = nested) ∧
      ∀ path ∈ r.orderBy.getD [] ++ r.returnProperties.getD [],
        Projection.Walks schema model (Projection.pathOf path) := by
  obtain ⟨-, selection, hselection, target, model?, hmodel?, horder, projection, hprojection,
    rfl⟩ := ofRequest_eq_ok.1 h
  have hadmitted := Selection.isAdmitted_of_ofRequest hselection
  obtain ⟨-, model, hmodel, filter, -, traversal, -, rfl⟩ :=
    (Selection.ofRequest_named_eq_ok (r := r.inner) htarget).1 hselection
  have hsame : model? = some model := by
    -- the class that the options are checked against is the one of the selection
    rw [htarget, readTarget, Schema.require, hmodel] at hmodel?
    exact (Prod.mk.inj (Except.ok.inj hmodel?)).2.symm
  subst hsame
  refine ⟨model, hmodel, rfl, fun s hs => ?_, ?_, walks_of_options horder hprojection⟩
  · exact (hadmitted s hs).isKnown
  · exact Request.inner_eq_self_of_nested hselection

/-- People around those who are among the friends of an Ann, or have the id of somebody all of whose
friends are of age. -/
def circleRequest : Request :=
  { Request.ofClass "Person" with
    filters := some (.any [
      .leaf ⟨"friends", none, .request {
        Request.ofClass "Person" with
        filters := some (.leaf ⟨"name", none, .literal (.string "Ann"), false⟩) }, false⟩,
      .leaf ⟨"@rid", some .isIn, .request {
        Request.ofClass "Person" with
        filters := some (.leaf ⟨"friends", some .containsAll, .request {
          Request.ofClass "Person" with
          filters := some (.leaf ⟨"age", some .atLeast, .literal (.int 18), false⟩)
          history := true }, false⟩)
        edges := some ["Knows"] }, false⟩])
    edges := some ["Knows"]
    direction := some .both
    returnProperties := some ["name", "friends.name", "friends.@rid"]
    orderBy := some ["friends.age", "@rid"] }

/-- Two levels under one and one under the other, all known, and none of the nested requests with
outer options. -/
theorem isKnown_of_circleRequest :
    circleRequest.target = .named "Person" ∧
      ∃ q, ofRequest peopleSchema {} circleRequest = .ok q ∧ q.selection.levels.length = 4 ∧
        (∀ s ∈ q.selection.levels, s.IsKnown peopleSchema) ∧
        (∀ nested ∈ circleRequest.levels.tail, nested.inner = nested) ∧
        ∃ model, peopleSchema.model? "Person" = some model ∧
          Projection.Walks peopleSchema model ["friends", "name"] := by
  obtain ⟨model, hmodel, -, hlevels, hnested, hpaths⟩ :=
    @isKnown_of_ofRequest peopleSchema {} circleRequest _ "Person" rfl rfl
  exact ⟨rfl, _, rfl, rfl, hlevels, hnested, model, hmodel, hpaths "friends.name" (by decide)⟩

end Query

end RecordQuery
