import RecordQuery.Store.Select

/-!
# Searching by name

A keyword search asks for the records of a class whose name matches every word of the keyword. Words
that are too short are turned down before anything is sent.
-/

namespace RecordQuery

/-- A wanted match of a word in the name. -/
def wordCriterion (word : String) : Criterion :=
  .leaf ⟨"name", some .containsText, .literal (.string word), false⟩

/-- The request of a keyword search. -/
def keywordRequest (schema : Schema) (limits : Limits) (className keyword : String) :
    Result Request := do
  let words := Text.words keyword
  if words.isEmpty then reject .noKeyword
  match shortWord? limits words with
  | some word => reject (.shortWord word limits.minWordSize.toNat)
  | none =>
    let model ← schema.require className
    let _ ← model.requireProperty "name"
    return { Request.ofClass className with filters := some (.all (words.map wordCriterion)) }

/-- The records that a keyword search finds. -/
def selectByKeyword (schema : Schema) (limits : Limits) (className keyword : String)
    (options : SelectOptions) : StoreM (List Record) := do
  let request ← StoreM.ofResult (keywordRequest schema limits className keyword)
  let query ← StoreM.ofResult
    (Query.ofRequest schema limits { request with history := options.history })
  select query.toStatement options

end RecordQuery
