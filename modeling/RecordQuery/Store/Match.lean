import RecordQuery.Query

/-!
# Matching by content

Given the content of a record, `matchQuery` asks for the stored record with that content. Every
property of the class that the content has is compared by equality, or only those that the active
unique indices of the class cover. A linked record that comes with its properties is compared by its
id.
-/

namespace RecordQuery

/-- How content is matched. -/
structure MatchOptions where
  /-- Whether deleted records match too. -/
  history : Bool := false
  /-- Whether only the properties of active unique indices are compared. -/
  activeIndexOnly : Bool := false

/-- The value that a property is compared with: an expanded link gives way to its id. -/
def comparedValue (value : Value) : Value :=
  match value with
  | .map _ => ((value.link? .persistent).map Value.ofRecordId).getD value
  | value => value

/-- The properties of a class that are compared. -/
def comparedProperties (model : ClassModel) (activeIndexOnly : Bool) : Result (List String) :=
  if activeIndexOnly then orReject (.noActiveIndex model.name) model.activeProperties
  else .ok (Dictionary.keys model.properties)

/-- The wanted comparisons of content. -/
def contentCriteria (content : List (String × Value)) (properties : List String) :
    List Criterion :=
  properties.filterMap fun property =>
    (Dictionary.find? property content).map fun value =>
      .leaf ⟨property, some .equal, .literal (comparedValue value), false⟩

/-- The query for the record with the given content. -/
def matchQuery (schema : Schema) (limits : Limits) (className : String)
    (content : List (String × Value)) (options : MatchOptions) : Result Query := do
  let model ← schema.require className
  let properties ← comparedProperties model options.activeIndexOnly
  Query.ofRequest schema limits
    { Request.ofClass model.name with
      filters := some (.all (contentCriteria content properties)), history := options.history }

end RecordQuery
