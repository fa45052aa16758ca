import RecordQuery.Proofs.Trails

/-!
# Trimming what has been trimmed

Trimming goes into every entry of a map, and so it may drop a record from under the `@rid`, the
`@class` or the `deletedAt` of the record around it. That one is then another record, or none, when
it is looked at again. Still nothing more is dropped from it: its class is a text, which stays, and
it is not deleted if it was not deleted before.

* `Value.Refines` — one choice of records keeps less than another, and it drops the same maps of a
  value before and after the value is trimmed by the other.
* `Value.bind_trim?` — then trimming by both, one after the other, is trimming by the first.
* `Record.refines_isShown` — so it is for readers by group when the one sees what the other sees.
* `Record.trimAll_trimAll` — the answer for the one is left of the answer for the other.
* `Record.trimAll_idempotent` — an answer that is trimmed again stays as it is.
-/

namespace RecordQuery

-- ---------------------------------------------------------------------------
-- Values
-- ---------------------------------------------------------------------------

namespace Value

variable {keep few many : Record → Bool}

/-- Trimming a list drops items and trims the others. -/
theorem trimItems_eq_filterMap (items : List Value) :
    trimItems keep items = items.filterMap (trim? keep) := by
  induction items with
  | nil => rfl
  | cons item rest ih =>
    rw [trimItems, ih, List.filterMap_cons]
    cases trim? keep item <;> rfl

/-- Trimming a map drops entries and trims the values of the others under their keys. -/
theorem trimEntries_eq_filterMap (entries : List (String × Value)) :
    trimEntries keep entries =
      entries.filterMap fun entry => (trim? keep entry.2).map fun v => (entry.1, v) := by
  induction entries with
  | nil => rfl
  | cons entry rest ih =>
    obtain ⟨key, value⟩ := entry
    rw [trimEntries, ih, List.filterMap_cons]
    cases trim? keep value <;> rfl

/-- Trimming a list twice is trimming it by the second choice, if that is so for each item. -/
theorem trimItems_trimItems {items : List Value}
    (h : ∀ item ∈ items, (trim? many item).bind (trim? few) = trim? few item) :
    trimItems few (trimItems many items) = trimItems few items := by
  simp only [trimItems_eq_filterMap]
  rw [List.filterMap_filterMap]
  exact List.filterMap_congr h

/-- Trimming a map twice is trimming it by the second choice, if that is so for each value. -/
theorem trimEntries_trimEntries {entries : List (String × Value)}
    (h : ∀ entry ∈ entries, (trim? many entry.2).bind (trim? few) = trim? few entry.2) :
    trimEntries few (trimEntries many entries) = trimEntries few entries := by
  simp only [trimEntries_eq_filterMap]
  rw [List.filterMap_filterMap]
  refine List.filterMap_congr fun entry hmem => ?_
  rw [← h entry hmem]
  cases trim? many entry.2 <;> rfl

/-- A map is dropped if it is a record that is not kept. -/
theorem trim?_map_eq_none_iff {entries : List (String × Value)} :
    trim? keep (.map entries) = none ↔
      isRecord entries = true ∧ keep (Record.ofEntries entries) = false :=
  @trim?_eq_none_iff keep (fun r => keep r = false) (fun _ => Iff.rfl) (.map entries)

/-- A map that is not dropped keeps what is left of its entries. -/
theorem trim?_map_of_ne_none {entries : List (String × Value)}
    (h : trim? keep (.map entries) ≠ none) :
    trim? keep (.map entries) = some (.map (trimEntries keep entries)) := by
  rw [trim?] at h ⊢
  split at h
  · exact absurd rfl h
  · next hkept => rw [if_neg hkept]

/-- What is dropped where more is kept is dropped where less is. -/
theorem trim?_map_eq_none_of_keeps (h : ∀ r, few r = true → many r = true)
    {entries : List (String × Value)} (hmany : trim? many (.map entries) = none) :
    trim? few (.map entries) = none := by
  rw [trim?_map_eq_none_iff] at hmany ⊢
  obtain ⟨hrecord, hdropped⟩ := hmany
  refine ⟨hrecord, ?_⟩
  rw [Bool.eq_false_iff] at hdropped ⊢
  exact mt (h _) hdropped

/-- The first choice keeps less than the second. Of the maps that the second does not drop it drops
those that it drops once the second has trimmed them. -/
structure Refines (few many : Record → Bool) : Prop where
  keeps : ∀ r, few r = true → many r = true
  drops : ∀ entries, Dictionary.Ordered entries → trim? many (.map entries) ≠ none →
    (trim? few (.map (trimEntries many entries)) = none ↔ trim? few (.map entries) = none)

/-- Trimming by the one that keeps more changes nothing for the one that keeps less: what the first
one drops the second one drops as well, and what is left is judged as before. -/
theorem bind_trim? (h : Refines few many) {v : Value} (hv : v.WellFormed) :
    (trim? many v).bind (trim? few) = trim? few v := by
  induction hv with
  | null | bool | int | float | string => rfl
  | list _ ih =>
    rw [trim?, trim?, Option.bind_some, trim?, trimItems_trimItems ih]
  -- a map that the first trimming drops is dropped by the second one anyway
  | @map entries hordered _ ih =>
    by_cases hmany : trim? many (.map entries) = none
    · rw [hmany, trim?_map_eq_none_of_keeps h.keeps hmany, Option.bind_none]
    · rw [trim?_map_of_ne_none hmany, Option.bind_some]
      have hsame := h.drops entries hordered hmany
      by_cases hfew : trim? few (.map entries) = none
      · rw [hfew, hsame.2 hfew]
      · rw [trim?_map_of_ne_none hfew, trim?_map_of_ne_none (mt hsame.1 hfew),
          trimEntries_trimEntries ih]

end Value

-- ---------------------------------------------------------------------------
-- Readers by group
-- ---------------------------------------------------------------------------

namespace Record

variable {history : Bool} {access few many : Option (ReadPolicy × Record)}

/-- Whether a viewer may read a record depends on its class only. -/
theorem sees_congr {r r' : Record} (hclass : r'.className = r.className) :
    ((ReadPolicy.viewer? access).all fun v => v.sees r') =
      (ReadPolicy.viewer? access).all fun v => v.sees r := by
  cases access with
  | none => rfl
  | some a =>
    show a.1.mayRead a.2 r' = a.1.mayRead a.2 r
    rw [ReadPolicy.mayRead, ReadPolicy.mayRead, hclass]

/-- A record that a viewer may not read has a class. -/
theorem exists_className_of_not_sees {r : Record}
    (h : ((ReadPolicy.viewer? access).all fun v => v.sees r) = false) :
    ∃ className, r.className = some className := by
  cases access with
  | none => cases h
  | some a =>
    have hread : a.1.mayRead a.2 r = false := h
    cases hclass : r.className with
    | none => rw [ReadPolicy.mayRead, hclass] at hread; cases hread
    | some className => exact ⟨className, rfl⟩

/-- What has a class is a record. -/
theorem isRecord_of_className {entries : List (String × Value)} {className : String}
    (h : (ofEntries entries).className = some className) : Value.isRecord entries = true := by
  obtain ⟨v, hfound, -⟩ := Option.bind_eq_some_iff.1 h
  rw [Value.isRecord, Dictionary.contains, Dictionary.contains, hfound, Option.isSome_some,
    Bool.or_true]

/-- Two viewers by group, of whom the first sees less. Only a record that the second may read and
the first may not is dropped for the first alone, so it has a class and keeps it. -/
theorem refines_isShown
    (h : ∀ r, isShown history (ReadPolicy.viewer? few) r = true →
      isShown history (ReadPolicy.viewer? many) r = true) :
    Value.Refines (isShown history (ReadPolicy.viewer? few))
      (isShown history (ReadPolicy.viewer? many)) := by
  refine ⟨h, fun entries hordered hmany => ?_⟩
  rw [Value.trim?_map_eq_none_iff, Value.trim?_map_eq_none_iff]
  constructor
  · rintro ⟨hrecord, hhidden⟩
    refine ⟨Value.isRecord_of_trimEntries hordered hrecord, ?_⟩
    rw [Bool.eq_false_iff] at hhidden ⊢
    exact mt (isShown_ofEntries_trimEntries hordered) hhidden
  · rintro ⟨hrecord, hhidden⟩
    have hmany : isShown history (ReadPolicy.viewer? many) (ofEntries entries) = true := by
      rw [ne_eq, Value.trim?_map_eq_none_iff] at hmany
      rw [← Bool.not_eq_false]
      exact fun hnot => hmany ⟨hrecord, hnot⟩
    -- the second sees it, so it is not its deletion that hides it from the first
    have hunread : ((ReadPolicy.viewer? few).all fun v => v.sees (ofEntries entries)) = false := by
      rw [isShown, Bool.and_eq_true] at hmany
      rwa [isShown, hmany.1, Bool.true_and] at hhidden
    have hclass := @className_ofEntries_trimEntries (isShown history (ReadPolicy.viewer? many)) _
      hordered
    obtain ⟨className, hsome⟩ := exists_className_of_not_sees hunread
    refine ⟨isRecord_of_className (hclass.trans hsome), ?_⟩
    rw [isShown, sees_congr hclass, hunread, Bool.and_false]

-- ---------------------------------------------------------------------------
-- Answers
-- ---------------------------------------------------------------------------

/-- Trimming a record does not change whether it is shown: that is decided by its envelope. -/
theorem isShown_trim (keep : Record → Bool) (r : Record) :
    isShown history (ReadPolicy.viewer? access) (trim keep r) =
      isShown history (ReadPolicy.viewer? access) r :=
  Bool.eq_iff_iff.2 ⟨isShown_congr rfl fun hdeleted => hdeleted,
    isShown_congr rfl fun hdeleted => hdeleted⟩

/-- Trimming a record twice is trimming it by the choice that keeps less. -/
theorem trim_trim {few many : Record → Bool} (h : Value.Refines few many) {r : Record}
    (hr : (Value.map r.properties).WellFormed) : trim few (trim many r) = trim few r := by
  have hentries : Value.trimEntries few (Value.trimEntries many r.properties) =
      Value.trimEntries few r.properties :=
    Value.trimEntries_trimEntries fun entry hmem =>
      Value.bind_trim? h ((Value.wellFormed_map.1 hr).2 entry hmem)
  rw [trim, trim, trim, hentries]

/-- What a viewer is shown of a record is left of what one is shown who sees more. With both the
same, this is trimming a second time. -/
theorem trimAll_trimAll
    (h : ∀ r, isShown history (ReadPolicy.viewer? few) r = true →
      isShown history (ReadPolicy.viewer? many) r = true)
    {records : List Record} (hrecords : ∀ r ∈ records, (Value.map r.properties).WellFormed) :
    trimAll history (ReadPolicy.viewer? few) (trimAll history (ReadPolicy.viewer? many) records) =
      trimAll history (ReadPolicy.viewer? few) records := by
  -- the records shown to the one are among those shown to the other, before and after trimming
  have hkept : (records.filter (isShown history (ReadPolicy.viewer? many))).filter
      (isShown history (ReadPolicy.viewer? few)) =
        records.filter (isShown history (ReadPolicy.viewer? few)) := by
    rw [List.filter_filter]
    refine List.filter_congr fun r _ => ?_
    cases hfew : isShown history (ReadPolicy.viewer? few) r with
    | false => rfl
    | true => exact h r hfew
  have hjudged : isShown history (ReadPolicy.viewer? few) ∘
      trim (isShown history (ReadPolicy.viewer? many)) =
        isShown history (ReadPolicy.viewer? few) :=
    funext fun r => isShown_trim _ r
  simp only [trimAll]
  rw [List.filter_map, hjudged, hkept, List.map_map]
  refine List.map_congr_left fun r hmem => ?_
  exact trim_trim (refines_isShown h) (hrecords r (List.mem_filter.1 hmem).1)

/-- Trimming an answer a second time changes nothing, whatever stands in the envelopes of the
records inside it, and with the history and without a viewer the first time changes nothing. -/
theorem trimAll_idempotent (history : Bool) (access : Option (ReadPolicy × Record))
    (records : List Record) (h : ∀ r ∈ records, (Value.map r.properties).WellFormed) :
    let viewer := ReadPolicy.viewer? access
    trimAll history viewer (trimAll history viewer records) = trimAll history viewer records ∧
      trimAll true none records = records :=
  ⟨trimAll_trimAll (fun _ hshown => hshown) h, trimAll_eq_self records⟩

/-- A disease in whose envelope stand a user that readers may not see, for its id, and a deleted
disease, for the time of deletion of another. The first is dropped from under the id, and the other
is dropped with all that stands in it. -/
theorem trimAll_idempotent_envelope :
    let policy := ReadPolicy.grant {} "readers" ["Disease"]
    let user : Record := { properties := [("groups", .list [.string "readers"])] }
    let secret : Value := .map [("@class", .string "User")]
    let deleted : Value := .map [("@class", .string "Disease"), ("deletedAt", .int 1)]
    let outer : Value := .map [("@class", .string "Disease"), ("deletedAt", deleted)]
    let kept : Value := .map [("@class", .string "Disease"), ("@rid", secret)]
    let record : Record := { properties := [("links", .list [outer, kept])] }
    let viewer := some (policy.viewer user)
    let shown : List Record :=
      [{ properties := [("links", .list [.map [("@class", .string "Disease")]])] }]
    trimAll false viewer [record] = shown ∧ trimAll false viewer shown = shown := by
  intro policy user secret deleted outer kept record viewer shown
  -- the keys are sorted, as those of every map that is decoded
  have htime : Dictionary.Ordered [("@class", Value.string "Disease"), ("deletedAt", .int 1)] := by
    decide +kernel
  have houter : Dictionary.Ordered [("@class", Value.string "Disease"), ("deletedAt", deleted)] :=
    List.pairwise_pair.2 (by decide +kernel)
  have hkept : Dictionary.Ordered [("@class", Value.string "Disease"), ("@rid", secret)] :=
    List.pairwise_pair.2 (by decide +kernel)
  have hrecord : (Value.map record.properties).WellFormed := by
    simp [record, outer, kept, secret, deleted, htime, houter, hkept]
  have hfirst : trimAll false viewer [record] = shown := rfl
  obtain ⟨hagain, -⟩ :=
    trimAll_idempotent false (some (policy, user)) [record] (by simpa using hrecord)
  exact ⟨hfirst, hfirst ▸ hagain⟩

end Record

end RecordQuery
