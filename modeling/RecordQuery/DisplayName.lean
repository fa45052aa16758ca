import RecordQuery.Store.Select

/-!
# Display names

Most records are shown by their name. A variant is named after the records it links to: its type and
one or two references. `NamePlan.make` finds out which is the case, a `LinkedLookup` asks for the
linked records once and `LinkedLookup.finish` puts their names together, whatever the order in which
they come back.

* A category variant reads `reference [and reference] type`.
* A positional variant has a notation of its own, `positionalNotation`: `KRAS:p.G12D` for one
  reference, `(EWSR1,FLI1):fusion(e.7,e.4)` for two.
-/

namespace RecordQuery

/-- The variants that are named after linked records. -/
inductive VariantKind where
  | category
  | positional
  deriving DecidableEq, Repr, Inhabited

/-- The linked records that a variant is named after. -/
structure LinkedLookup where
  kind : VariantKind
  type : RecordId
  reference1 : RecordId
  reference2 : Option RecordId
  content : Record

/-- How a display name is found. -/
inductive NamePlan where
  /-- The name is known, or there is none. -/
  | resolved (name : Option String)
  /-- The linked records are needed first. -/
  | lookup (lookup : LinkedLookup)

-- ---------------------------------------------------------------------------
-- Positional notation
-- ---------------------------------------------------------------------------

/-- The end of a range without the letter and the point it may start with. -/
def withoutCoordinate (position : String) : String :=
  match Text.cut '.' position.toList with
  | some ([letter], rest) => if letter.toNat < 0x80 then String.ofList rest else position
  | _ => position

/-- The position of a variant: one break, or a range of two. -/
def positionText (break1 break2 : String) : String :=
  if break2.isEmpty then break1 else break1 ++ "_" ++ withoutCoordinate break2

/-- The change at a position, by the type of the variant. -/
def changeText (type reference untemplated : String) : String :=
  match type with
  | "substitution" => untemplated
  | "deletion" => "del" ++ reference
  | "insertion" => "ins" ++ untemplated
  | "duplication" => "dup" ++ reference
  | "indel" | "delins" => "del" ++ reference ++ "ins" ++ untemplated
  | other => other

/-- The notation of a positional variant. -/
def positionalNotation (content : Record) (type reference1 : String)
    (reference2 : Option String) : String :=
  let text (property : String) : String := (content.text? property).getD ""
  let break1 := text "break1Repr"
  let break2 := text "break2Repr"
  match reference2 with
  | some reference2 =>
    let breaks := [break1, break2].filter fun b => !b.isEmpty
    "(" ++ reference1 ++ "," ++ reference2 ++ "):" ++ type ++ "(" ++ ",".intercalate breaks ++ ")"
  | none =>
    reference1 ++ ":" ++ positionText break1 break2 ++
      changeText type (text "refSeq") (text "untemplatedSeq")

-- ---------------------------------------------------------------------------
-- Plans
-- ---------------------------------------------------------------------------

/-- The kind of variant that a class is, if its records are named after linked records. -/
def VariantKind.ofClass? (model : ClassModel) : Option VariantKind :=
  if !model.isA "Variant" then none
  else if model.name = "CategoryVariant" then some .category
  else if model.name = "PositionalVariant" then some .positional
  else none

/-- A link that a variant has to have. -/
def requireLink (model : ClassModel) (content : Record) (property : String) : Result RecordId :=
  orReject (.noLink model.name property) (content.link? property)

/-- How the display name of a record of a class is found. -/
def NamePlan.make (schema : Schema) (className : String) (content : Record) : Result NamePlan := do
  let model ← schema.require className
  if model.name = "Statement" then return .resolved none
  match VariantKind.ofClass? model with
  | none => return .resolved content.name?
  | some kind =>
    let type ← requireLink model content "type"
    let reference1 ← requireLink model content "reference1"
    return .lookup ⟨kind, type, reference1, content.link? "reference2", content⟩

namespace LinkedLookup

/-- The linked records, each once, the type first. -/
def ids (l : LinkedLookup) : List RecordId :=
  distinct (l.type :: l.reference1 :: l.reference2.toList)

/-- The statement that asks for the names of the linked records. -/
def statement (l : LinkedLookup) : Statement :=
  OuterOptions.wrap { projection := some "@rid, displayName, name" }
    (Selection.ofRecords l.ids true).toStatement

/-- The name of a linked record: its display name, else its name, else its id. -/
def nameOf (l : LinkedLookup) (rows : List Record) (id : RecordId) : Result String :=
  match rows.find? fun row => row.id = some id with
  | none => .error (.noRecordFound (.linkNotFound id) (some l.statement.display))
  | some row => .ok ((row.text? "displayName" <|> row.name?).getD id.text)

/-- The name of a linked record that may be missing. -/
def nameOf? (l : LinkedLookup) (rows : List Record) :
    Option RecordId → Result (Option String)
  | none => .ok none
  | some id => (l.nameOf rows id).map some

/-- The name of a variant out of the names of the linked records. -/
def compose (l : LinkedLookup) (type reference1 : String) (reference2 : Option String) : String :=
  match l.kind with
  | .category =>
    match reference2 with
    | some reference2 => reference1 ++ " and " ++ reference2 ++ " " ++ type
    | none => reference1 ++ " " ++ type
  | .positional => positionalNotation l.content type reference1 reference2

/-- The display name, given the rows that the statement brought. -/
def finish (l : LinkedLookup) (rows : List Record) : Result String := do
  let type ← l.nameOf rows l.type
  let reference1 ← l.nameOf rows l.reference1
  let reference2 ← l.nameOf? rows l.reference2
  return l.compose type reference1 reference2

end LinkedLookup

/-- The display name of a record of a class. -/
def fetchDisplayName (schema : Schema) (className : String) (content : Record) :
    StoreM (Option String) := do
  match ← StoreM.ofResult (NamePlan.make schema className content) with
  | .resolved name => return name
  | .lookup l =>
    let rows ← select l.statement { exactly := some l.ids.length, history := true }
    return some (← StoreM.ofResult (l.finish rows))

end RecordQuery
