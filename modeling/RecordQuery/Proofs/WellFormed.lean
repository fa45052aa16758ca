import RecordQuery.Record

/-!
# Well formed values

A map in a value is a list of entries, and nothing in its type says that it is a dictionary.
`Value.WellFormed` says so of every map in a value, at any depth. `Record.wellFormed_of_listOfText?`
shows it of the properties of every record that is read from a text: the members of an object are
inserted one after another, and so are the properties of a row.
-/

namespace RecordQuery

-- ---------------------------------------------------------------------------
-- Values
-- ---------------------------------------------------------------------------

namespace Value

/-- Every map in a value is a dictionary. -/
inductive WellFormed : Value → Prop
  | null : WellFormed .null
  | bool (flag : Bool) : WellFormed (.bool flag)
  | int (n : Int64) : WellFormed (.int n)
  | float (x : Binary64) : WellFormed (.float x)
  | string (text : String) : WellFormed (.string text)
  | list {items : List Value} : (∀ item ∈ items, WellFormed item) → WellFormed (.list items)
  | map {entries : List (String × Value)} : Dictionary.Ordered entries →
      (∀ entry ∈ entries, WellFormed entry.2) → WellFormed (.map entries)

attribute [simp] WellFormed.null WellFormed.bool WellFormed.int WellFormed.float WellFormed.string

/-- A list is well formed when its items are. -/
@[simp]
theorem wellFormed_list {items : List Value} :
    (list items).WellFormed ↔ ∀ item ∈ items, item.WellFormed := by
  refine ⟨fun h => ?_, .list⟩
  cases h with
  | list hitems => exact hitems

/-- A map is well formed when it is a dictionary of values that are. -/
@[simp]
theorem wellFormed_map {entries : List (String × Value)} :
    (map entries).WellFormed ↔
      Dictionary.Ordered entries ∧ ∀ entry ∈ entries, entry.2.WellFormed := by
  refine ⟨fun h => ?_, fun h => .map h.1 h.2⟩
  cases h with
  | map hordered hvalues => exact ⟨hordered, hvalues⟩

end Value

-- ---------------------------------------------------------------------------
-- Values that are read
-- ---------------------------------------------------------------------------

namespace Value

/-- The items of a list are read one by one. -/
theorem ofItems_eq_map (items : List Json) : ofItems items = items.map ofJson := by
  induction items with
  | nil => rfl
  | cons item rest ih => rw [ofItems, ih, List.map_cons]

/-- The members of an object are read one by one, under their keys. -/
theorem ofMembers_eq_map (members : List (String × Json)) :
    ofMembers members = members.map fun m => (m.1, ofJson m.2) := by
  induction members with
  | nil => rfl
  | cons m rest ih => rw [ofMembers, ih, List.map_cons]

/-- The members of an object are collected in the order of their keys, the last of each key. -/
theorem wellFormed_ofMembers {members : List (String × Json)}
    (h : ∀ m ∈ members, (ofJson m.2).WellFormed) :
    (ofJson (Json.ofMembers members)).WellFormed := by
  rw [Json.ofMembers, ofJson, ofMembers_eq_map, wellFormed_map]
  constructor
  · exact (Dictionary.ordered_ofList members).map _ fun _ _ hlt => hlt
  · intro entry hmem
    obtain ⟨m, hm, rfl⟩ := List.mem_map.1 hmem
    exact h m (Dictionary.mem_of_mem_ofList hm)

/-- A number is a value without maps in it. -/
theorem wellFormed_of_numberValue? {l : Literal} {j : Json}
    (h : Document.numberValue? l = some j) : (ofJson j).WellFormed := by
  -- every number that is no integer in range is a float
  have hfloat : ∀ x, some x = l.read.map Json.float → (ofJson x).WellFormed := by
    intro x hx
    obtain ⟨y, -, rfl⟩ := Option.map_eq_some_iff.1 hx.symm
    exact .float y
  unfold Document.numberValue? at h
  dsimp only at h
  split at h
  · split at h
    · cases h
      rw [ofJson]
      split
      · exact .int _
      · exact .float _
    · exact hfloat _ h.symm
  · exact hfloat _ h.symm

mutual

/-- Documents are read to well formed values. Members that come twice are read as one, so the keys
of a map are in order however the document has them. -/
theorem wellFormed_of_toJson? : ∀ {depth : Nat} {d : Document} {j : Json},
    d.toJson? depth = some j → (ofJson j).WellFormed
  | _, .null, _, h => by
    cases h
    exact .null
  | _, .bool flag, _, h => by
    cases h
    exact .bool flag
  | _, .number l, _, h => by
    have hnumber : Document.numberValue? l = some _ := h
    exact wellFormed_of_numberValue? hnumber
  | _, .string text, _, h => by
    obtain ⟨s, -, rfl⟩ := Option.map_eq_some_iff.1 h
    exact .string s
  | depth, .array items, _, h => by
    rw [Document.toJson?] at h
    split at h
    · cases h
    · obtain ⟨js, hjs, rfl⟩ := Option.map_eq_some_iff.1 h
      rw [ofJson, ofItems_eq_map, wellFormed_list]
      intro v hv
      obtain ⟨j, hj, rfl⟩ := List.mem_map.1 hv
      exact wellFormed_of_itemsToJson? hjs j hj
  | depth, .object members, _, h => by
    rw [Document.toJson?] at h
    split at h
    · cases h
    · obtain ⟨ms, hms, rfl⟩ := Option.map_eq_some_iff.1 h
      exact wellFormed_ofMembers (wellFormed_of_membersToJson? hms)
  termination_by structural _ d => d

/-- Items that are read are well formed. -/
theorem wellFormed_of_itemsToJson? : ∀ {depth : Nat} {items : List Document} {js : List Json},
    Document.itemsToJson? depth items = some js → ∀ j ∈ js, (ofJson j).WellFormed
  | _, [], _, h => by cases h; simp
  | depth, item :: rest, js, h => by
    rw [Document.itemsToJson?] at h
    split at h
    · next value values hvalue hvalues =>
      cases h
      intro j hj
      rcases List.mem_cons.1 hj with rfl | hj
      · exact wellFormed_of_toJson? hvalue
      · exact wellFormed_of_itemsToJson? hvalues j hj
    · cases h
  termination_by structural _ items => items

/-- Members that are read are well formed. -/
theorem wellFormed_of_membersToJson? :
    ∀ {depth : Nat} {members : List (Option String × Document)} {ms : List (String × Json)},
    Document.membersToJson? depth members = some ms → ∀ m ∈ ms, (ofJson m.2).WellFormed
  | _, [], _, h => by cases h; simp
  | depth, (key, content) :: rest, ms, h => by
    unfold Document.membersToJson? at h
    split at h
    · next k value values hvalue hvalues =>
      cases h
      intro m hm
      rcases List.mem_cons.1 hm with rfl | hm
      · exact wellFormed_of_toJson? hvalue
      · exact wellFormed_of_membersToJson? hvalues m hm
    · cases h
  termination_by structural _ members => members

end

end Value

-- ---------------------------------------------------------------------------
-- Records that are read
-- ---------------------------------------------------------------------------

namespace Record

/-- Reading members keeps the properties a dictionary: the envelope takes some of them, and the rest
are inserted. -/
theorem wellFormed_of_ofMembers? {r r' : Record} {members : List (String × Json)}
    (hr : (Value.map r.properties).WellFormed)
    (hmembers : ∀ m ∈ members, (Value.ofJson m.2).WellFormed)
    (h : ofMembers? r members = .ok r') : (Value.map r'.properties).WellFormed := by
  induction members generalizing r with
  | nil =>
    cases h
    exact hr
  | cons m rest ih =>
    obtain ⟨key, j⟩ := m
    have hrest : ∀ m ∈ rest, (Value.ofJson m.2).WellFormed :=
      fun m hm => hmembers m (List.mem_cons_of_mem _ hm)
    unfold ofMembers? at h
    split at h
    -- the members of the envelope leave the properties as they are
    · cases hid : optionalId? j with
      | error e => rw [hid] at h; cases h
      | ok id =>
        rw [hid] at h
        refine ih ?_ hrest h
        exact hr
    · cases hname : optionalText? j with
      | error e => rw [hname] at h; cases h
      | ok className =>
        rw [hname] at h
        refine ih ?_ hrest h
        exact hr
    · refine ih ?_ hrest h
      exact hr
    · refine ih ?_ hrest h
      exact hr
    · refine ih ?_ hrest h
      exact hr
    · refine ih ?_ hrest h
      obtain ⟨hordered, hvalues⟩ := Value.wellFormed_map.1 hr
      refine Value.wellFormed_map.2 ⟨Dictionary.ordered_insert hordered, ?_⟩
      intro entry hmem
      rcases Dictionary.mem_insert hmem with rfl | hmem
      · exact hmembers _ (List.mem_cons_self ..)
      · exact hvalues entry hmem

/-- The properties of a record that is read are well formed. -/
theorem wellFormed_of_ofJson? {r : Record} {j : Json} (hj : (Value.ofJson j).WellFormed)
    (h : ofJson? j = .ok r) : (Value.map r.properties).WellFormed := by
  cases j with
  | object members =>
    rw [Value.ofJson, Value.ofMembers_eq_map, Value.wellFormed_map] at hj
    refine wellFormed_of_ofMembers? ?_ ?_ h
    · simp
    · intro m hm
      exact hj.2 _ (List.mem_map_of_mem hm)
  | _ => cases h

/-- A record of an answer was read from one of its items, and so is as well formed as that item. -/
theorem exists_of_mem_listOf? {items : List Json} {records : List Record} {r : Record}
    (h : (items.mapM ofJson?).toOption = some records) (hr : r ∈ records) :
    ∃ item ∈ items, ofJson? item = .ok r := by
  induction items generalizing records with
  | nil =>
    cases h
    cases hr
  | cons item rest ih =>
    rw [List.mapM_cons] at h
    cases hfirst : ofJson? item with
    | error e => rw [hfirst] at h; cases h
    | ok first =>
      cases hothers : rest.mapM ofJson? with
      | error e => rw [hfirst, hothers] at h; cases h
      | ok others =>
        rw [hfirst, hothers] at h
        cases h
        rcases List.mem_cons.1 hr with rfl | hr
        · exact ⟨item, List.mem_cons_self .., hfirst⟩
        · obtain ⟨found, hfound, heq⟩ := ih (by rw [hothers]; rfl) hr
          exact ⟨found, List.mem_cons_of_mem _ hfound, heq⟩

/-- The rows of an answer of the store are well formed. -/
theorem wellFormed_of_listOfText? {text : String} {records : List Record}
    (h : listOfText? text = some records) :
    ∀ r ∈ records, (Value.map r.properties).WellFormed := by
  unfold listOfText? at h
  obtain ⟨document, -, h⟩ := Option.bind_eq_some_iff.1 h
  -- only a document that holds a list answers with rows
  split at h
  · dsimp only at h
    split at h
    · cases h
    · obtain ⟨j, hj, h⟩ := Option.bind_eq_some_iff.1 h
      split at h
      · next items =>
        have hitems := Value.wellFormed_of_toJson? hj
        rw [Value.ofJson, Value.ofItems_eq_map, Value.wellFormed_list] at hitems
        intro r hr
        obtain ⟨item, hitem, hrow⟩ := exists_of_mem_listOf? h hr
        exact wellFormed_of_ofJson? (hitems _ (List.mem_map_of_mem hitem)) hrow
      · cases h
  · cases h

end Record

end RecordQuery
