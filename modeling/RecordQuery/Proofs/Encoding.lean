import RecordQuery.Request.Decode

/-!
# Writing requests in JSON

Every request can be written as the object of its fields, and criteria as explicit comparisons and
junctions. An option that is not set is written as null or left out; which one, `omitted` decides for
each request and field.

* `Criterion.toJson`, `Request.toJson` — criteria and requests as written.
* `Value.ofJson_toJson` — values read back.
* `Request.ofMembers?_fields` — the fields of a request read back if its criteria do.
* `Request.toJson_eq` — a request is written as the object of its fields, in order.
-/

namespace RecordQuery

-- ---------------------------------------------------------------------------
-- Encoding
-- ---------------------------------------------------------------------------

namespace Json

/-- The value of an option: without one it is null or left out. -/
def optional (omitted : Bool) : Option Json → Option Json
  | none => if omitted then none else some .null
  | some j => some j

/-- The members that are not left out. -/
def present (fields : List (String × Option Json)) : List (String × Json) :=
  fields.filterMap fun (name, value) => value.map fun j => (name, j)

end Json

/-- A target as written. -/
def WantedTarget.toJson : WantedTarget → Json
  | .named className => .string className
  | .records ids => .strings ids

/-- The fields of a request in the order of their names, with its criteria as written. -/
def Request.fields (omitted : String → Bool) (filters : Option Json) (r : Request) :
    List (String × Option Json) :=
  let option (name : String) (value : Option Json) : String × Option Json :=
    (name, Json.optional (omitted name) value)
  [("count", some (.bool r.count)),
    option "depth" (r.depth.map fun n => .integer n.toNat),
    option "direction" (r.direction.map fun d => .string d.name),
    option "edges" (r.edges.map .strings),
    option "filters" filters,
    ("history", some (.bool r.history)),
    option "limit" (r.limit.map fun n => .integer n.toNat),
    option "neighbors" (r.neighbors.map fun n => .integer n.toNat),
    option "orderBy" (r.orderBy.map .strings),
    option "orderByDirection" (r.orderByDirection.map fun d => .string d.keyword),
    option "queryType" (r.style.map fun s => .string s.name),
    option "returnProperties" (r.returnProperties.map .strings),
    ("skip", some (.integer r.skip.toNat)),
    ("target", some r.target.toJson)]

mutual

/-- Criteria as written; `omitted` says which absent options of which request are left out. -/
def Criterion.toJson (omitted : Request → String → Bool) : Criterion → Json
  | .leaf comparison => WantedComparison.toJson omitted comparison
  | .all children => .ofMembers [("AND", .array (Criterion.toItems omitted children))]
  | .any children => .ofMembers [("OR", .array (Criterion.toItems omitted children))]
  termination_by structural c => c

/-- A list of criteria as written. -/
def Criterion.toItems (omitted : Request → String → Bool) : List Criterion → List Json
  | [] => []
  | child :: rest => Criterion.toJson omitted child :: Criterion.toItems omitted rest
  termination_by structural cs => cs

/-- An explicit comparison as written. -/
def WantedComparison.toJson (omitted : Request → String → Bool) : WantedComparison → Json
  | ⟨property, operator, operand, negated⟩ =>
    .ofMembers [("negate", .bool negated),
      ("operator", Json.ofOption (fun o => .string o.symbol) operator),
      (property, WantedOperand.toJson omitted operand)]
  termination_by structural c => c

/-- An operand as written. -/
def WantedOperand.toJson (omitted : Request → String → Bool) : WantedOperand → Json
  | .literal value => value.toJson
  | .request request => Request.toJson omitted request
  termination_by structural o => o

/-- The criteria of a request as written. -/
def Criterion.toJson? (omitted : Request → String → Bool) : Option Criterion → Option Json
  | none => none
  | some criterion => some (Criterion.toJson omitted criterion)
  termination_by structural c => c

/-- A request as written. -/
def Request.toJson (omitted : Request → String → Bool) : Request → Json
  | ⟨target, filters, neighbors, style, edges, direction, depth, returnProperties, orderBy,
      orderByDirection, skip, limit, history, count⟩ =>
    let r : Request := ⟨target, filters, neighbors, style, edges, direction, depth,
      returnProperties, orderBy, orderByDirection, skip, limit, history, count⟩
    .ofMembers (Json.present (r.fields (omitted r) (Criterion.toJson? omitted filters)))
  termination_by structural r => r

end

/-- The property of a comparison stands among the modifiers, in the order of the keys. -/
example : (Criterion.leaf ⟨"AND", none, .literal .null, true⟩).toJson (fun _ _ => true) =
    .object [("AND", .null), ("negate", .bool true), ("operator", .null)] := rfl

-- ---------------------------------------------------------------------------
-- Values
-- ---------------------------------------------------------------------------

namespace Value

mutual

/-- A value reads back. -/
theorem ofJson_toJson : ∀ v : Value, ofJson v.toJson = v
  | .null => rfl
  | .bool flag => rfl
  | .int n => by
    rw [toJson, ofJson, if_pos ⟨n.minValue_le_toInt, n.toInt_le⟩, Int64.ofInt_toInt]
  | .float x => rfl
  | .string s => rfl
  | .list items => by rw [toJson, ofJson, ofItems_toItems items]
  | .map entries => by rw [toJson, ofJson, ofMembers_toMembers entries]
  termination_by structural v => v

/-- Values that are written and read come back, item by item. -/
theorem ofItems_toItems : ∀ items : List Value, ofItems (toItems items) = items
  | [] => rfl
  | item :: rest => by rw [toItems, ofItems, ofJson_toJson item, ofItems_toItems rest]
  termination_by structural items => items

/-- And so do the entries of a map. -/
theorem ofMembers_toMembers : ∀ entries : List (String × Value),
    ofMembers (toMembers entries) = entries
  | [] => rfl
  | (key, value) :: rest => by
    rw [toMembers, ofMembers, ofJson_toJson value, ofMembers_toMembers rest]
  termination_by structural entries => entries

end

/-- Writing entries keeps their keys. -/
theorem contains_toMembers (key : String) (entries : List (String × Value)) :
    Dictionary.contains key (toMembers entries) = Dictionary.contains key entries := by
  induction entries with
  | nil => rfl
  | cons entry rest ih =>
    obtain ⟨k, v⟩ := entry
    unfold Dictionary.contains at ih ⊢
    rw [toMembers, Dictionary.find?, Dictionary.find?]
    split
    · rfl
    · exact ih

end Value

-- ---------------------------------------------------------------------------
-- Fields
-- ---------------------------------------------------------------------------

namespace Shape

/-- What is written is not null and reads back. -/
theorem option?_of_ok {α : Type} {decode : Json → Except ShapeError α} {j : Json} {a : α}
    (hj : j ≠ .null) (h : decode j = .ok a) : option? decode j = .ok (some a) := by
  cases j with
  | null => exact absurd rfl hj
  | _ => exact congrArg (Except.map some) h

theorem boolean?_bool (flag : Bool) : boolean? (.bool flag) = .ok flag := rfl

/-- A small number that is written is read back. -/
theorem option?_word32 (n : UInt32) : option? word32? (.integer n.toNat) = .ok (some n) := by
  have hbound : (0 : Int) ≤ n.toNat ∧ (n.toNat : Int) < UInt32.size :=
    ⟨Int.natCast_nonneg _, Int.ofNat_lt.2 n.toNat_lt_size⟩
  refine option?_of_ok nofun ?_
  rw [word32?, natural?, if_pos hbound]
  exact congrArg Except.ok UInt32.ofNat_toNat

/-- A large number that is written is read back. -/
theorem word64?_toNat (n : UInt64) : word64? (.integer n.toNat) = .ok n := by
  have hbound : (0 : Int) ≤ n.toNat ∧ (n.toNat : Int) < UInt64.size :=
    ⟨Int.natCast_nonneg _, Int.ofNat_lt.2 n.toNat_lt_size⟩
  rw [word64?, natural?, if_pos hbound]
  exact congrArg Except.ok UInt64.ofNat_toNat

theorem option?_word64 (n : UInt64) : option? word64? (.integer n.toNat) = .ok (some n) :=
  option?_of_ok nofun (word64?_toNat n)

/-- Texts that are written one by one are read back. -/
theorem mapM_text? (texts : List String) : (texts.map Json.string).mapM text? = .ok texts := by
  induction texts with
  | nil => rfl
  | cons text rest ih =>
    rw [List.map_cons, List.mapM_cons, ih]
    rfl

theorem option?_texts (texts : List String) :
    option? texts? (.strings texts) = .ok (some texts) :=
  option?_of_ok nofun (mapM_text? texts)

theorem option?_direction (d : Direction) :
    option? (named? Direction.names) (.string d.name) = .ok (some d) := by
  cases d <;> rfl

theorem option?_style (s : TraversalStyle) :
    option? (named? TraversalStyle.names) (.string s.name) = .ok (some s) := by
  cases s <;> rfl

theorem option?_sortDirection (d : SortDirection) :
    option? (named? SortDirection.names) (.string d.keyword) = .ok (some d) := by
  cases d <;> rfl

end Shape

namespace Request

/-- A target is read back: a class from a text, records from a list of texts. -/
theorem target?_toJson (target : WantedTarget) : target? target.toJson = .ok target := by
  cases target with
  | named className => rfl
  | records ids => rw [WantedTarget.toJson, Json.strings, target?, Shape.mapM_text?]

theorem ofMembers?_nil (r : Request) : ofMembers? [] r = .ok r := by rw [ofMembers?]

/-- A member that is not the criteria sets one field, and the others follow. -/
theorem ofMembers?_cons {name : String} (hname : name ≠ "filters") (value : Json)
    (rest : List (String × Json)) (r : Request) :
    ofMembers? ((name, value) :: rest) r = r.setField? name value >>= ofMembers? rest := by
  cases value <;> rw [ofMembers?, if_neg hname] <;> simp

section Fields

variable {α : Type} (name : String) (hname : name ≠ "filters") {r : Request}
  (rest : List (String × Option Json))

include hname

/-- Decoding goes on behind a field other than the criteria. -/
theorem ofMembers?_field (set : Request → α → Request) {decode : Json → Except ShapeError α}
    (hset : ∀ r j, r.setField? name j = do return set r (← decode j)) {j : Json} {a : α}
    (h : decode j = .ok a) :
    ofMembers? (Json.present ((name, some j) :: rest)) r =
      ofMembers? (Json.present rest) (set r a) := by
  show ofMembers? ((name, j) :: Json.present rest) r = _
  rw [ofMembers?_cons hname, hset, h]
  rfl

/-- Decoding goes on behind an option other than the criteria. Where it is left out, the request
had none before. -/
theorem ofMembers?_option (set : Request → Option α → Request)
    {decode : Json → Except ShapeError α}
    (hset : ∀ r j, r.setField? name j = do return set r (← Shape.option? decode j))
    {encode : α → Json} (hencode : ∀ a, Shape.option? decode (encode a) = .ok (some a))
    (hnone : set r none = r) (omitted : Bool) (value : Option α) :
    ofMembers? (Json.present ((name, Json.optional omitted (value.map encode)) :: rest)) r =
      ofMembers? (Json.present rest) (set r value) := by
  cases value with
  | some a => exact ofMembers?_field name hname rest set hset (hencode a)
  -- left out or written as null
  | none =>
    cases omitted with
    | true =>
      rw [hnone]
      rfl
    | false =>
      have hnull : Shape.option? decode .null = .ok none := rfl
      exact ofMembers?_field name hname rest set hset hnull

end Fields

/-- Decoding goes on behind the criteria if these read back. Criteria that are missing may be
written as null or left out, and no criteria that are there are written as null. -/
theorem ofMembers?_filters {encode : Criterion → Json} {filters : Option Criterion}
    (hencode : ∀ c ∈ filters, Criterion.ofJson? (encode c) = .ok c)
    (rest : List (String × Option Json)) {r : Request} (hnone : r.filters = none)
    (omitted : Bool) :
    ofMembers? (Json.present (("filters", Json.optional omitted (filters.map encode)) :: rest)) r =
      ofMembers? (Json.present rest) { r with filters } := by
  cases filters with
  | none =>
    -- criteria that are left out and criteria that are null are both none
    have hsame : { r with filters := none } = r := by
      cases r
      cases hnone
      rfl
    rw [hsame]
    cases omitted with
    | true => rfl
    | false =>
      show ofMembers? (("filters", .null) :: Json.present rest) r = _
      rw [ofMembers?, if_pos rfl]
  | some c =>
    have hread := hencode c rfl
    show ofMembers? (("filters", encode c) :: Json.present rest) r = _
    cases hwritten : encode c with
    | null =>
      rw [hwritten, Criterion.ofJson?] at hread
      · cases hread
      all_goals exact nofun
    | _ =>
      rw [hwritten] at hread
      rw [ofMembers?, if_pos rfl]
      · rw [hread]
        rfl
      · exact nofun

/-- The fields of a request read back if its criteria do, whichever of the absent options are left
out. The members stand in the order of their names, and each sets its own field. -/
theorem ofMembers?_fields {r : Request} {encode : Criterion → Json} (omitted : String → Bool)
    (hencode : ∀ c ∈ r.filters, Criterion.ofJson? (encode c) = .ok c) :
    ofMembers? (Json.present (r.fields omitted (r.filters.map encode))) (.ofClass "") = .ok r := by
  -- each field of the request is read by the rule of its own kind, in the order of the names
  simp only [fields, ofClass, ofTarget,
    ofMembers?_field "count" (by decide) _ (fun r count => { r with count }) (fun _ _ => rfl)
      (Shape.boolean?_bool _),
    ofMembers?_option "depth" (by decide) _ (fun r depth => { r with depth }) (fun _ _ => rfl)
      Shape.option?_word32,
    ofMembers?_option "direction" (by decide) _ (fun r direction => { r with direction })
      (fun _ _ => rfl) Shape.option?_direction,
    ofMembers?_option "edges" (by decide) _ (fun r edges => { r with edges }) (fun _ _ => rfl)
      Shape.option?_texts,
    ofMembers?_filters hencode,
    ofMembers?_field "history" (by decide) _ (fun r history => { r with history }) (fun _ _ => rfl)
      (Shape.boolean?_bool _),
    ofMembers?_option "limit" (by decide) _ (fun r limit => { r with limit }) (fun _ _ => rfl)
      Shape.option?_word64,
    ofMembers?_option "neighbors" (by decide) _ (fun r neighbors => { r with neighbors })
      (fun _ _ => rfl) Shape.option?_word32,
    ofMembers?_option "orderBy" (by decide) _ (fun r orderBy => { r with orderBy })
      (fun _ _ => rfl) Shape.option?_texts,
    ofMembers?_option "orderByDirection" (by decide) _
      (fun r orderByDirection => { r with orderByDirection }) (fun _ _ => rfl)
      Shape.option?_sortDirection,
    ofMembers?_option "queryType" (by decide) _ (fun r style => { r with style })
      (fun _ _ => rfl) Shape.option?_style,
    ofMembers?_option "returnProperties" (by decide) _
      (fun r returnProperties => { r with returnProperties }) (fun _ _ => rfl)
      Shape.option?_texts,
    ofMembers?_field "skip" (by decide) _ (fun r skip => { r with skip }) (fun _ _ => rfl)
      (Shape.word64?_toNat _),
    ofMembers?_field "target" (by decide) _ (fun r target => { r with target }) (fun _ _ => rfl)
      (target?_toJson _)]
  cases r
  exact ofMembers?_nil _

/-- The fields are written in the order of their names. -/
theorem ordered_present_fields (r : Request) (omitted : String → Bool) (filters : Option Json) :
    Dictionary.Ordered (Json.present (r.fields omitted filters)) := by
  have hnames : ((r.fields omitted filters).map (·.1)).Pairwise (· < ·) := by
    show List.Pairwise (· < ·) ["count", "depth", "direction", "edges", "filters", "history",
      "limit", "neighbors", "orderBy", "orderByDirection", "queryType", "returnProperties", "skip",
      "target"]
    decide
  refine List.pairwise_filterMap.2 ((List.pairwise_map.1 hnames).imp ?_)
  intro a b hab entry hentry later hlater
  obtain ⟨j, -, rfl⟩ := Option.map_eq_some_iff.1 hentry
  obtain ⟨k, -, rfl⟩ := Option.map_eq_some_iff.1 hlater
  exact hab

/-- A request is written as an object, whose members are its fields in order. -/
theorem toJson_eq (omitted : Request → String → Bool) (r : Request) : r.toJson omitted =
    .object (Json.present (r.fields (omitted r) (r.filters.map (Criterion.toJson omitted)))) := by
  have hfilters :
      Criterion.toJson? omitted r.filters = r.filters.map (Criterion.toJson omitted) := by
    cases r.filters <;> rfl
  rw [← hfilters, ← Dictionary.ofList_eq_self (ordered_present_fields r _ _)]
  cases r
  rfl

/-- An object that a request is written as has a target. -/
theorem contains_target (r : Request) (omitted : String → Bool) (filters : Option Json) :
    Dictionary.contains "target" (Json.present (r.fields omitted filters)) = true := by
  rw [Dictionary.contains, Dictionary.find?_isSome_iff]
  have hfield : ("target", some r.target.toJson) ∈ r.fields omitted filters := by simp [fields]
  exact List.mem_map.2 ⟨("target", r.target.toJson), List.mem_filterMap.2 ⟨_, hfield, rfl⟩, rfl⟩

end Request

end RecordQuery
