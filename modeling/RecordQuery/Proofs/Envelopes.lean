import RecordQuery.Proofs.Encoding
import RecordQuery.Proofs.Trimming

/-!
# The two readings of a record

A record at the top of an answer is decoded member by member, and a record inside a value is taken
apart by key. This module compares the two on one map. They agree on which maps are records of which
id and class, on the time of deletion and on the properties. An end of an edge that is null is left
out by the first reading and kept by the second, although both take a null id, class and time of
deletion for none.

* `Record.ofMembers?_cons_iff` — decoding one more member.
* `Record.ofJson?_toJson_eq_ok` — which maps are decoded, and as which record.
* `Record.ofEntries_eq_iff` — when the two readings give one record.
-/

namespace RecordQuery

namespace Record

/-- The record without the ends that are null. -/
def withoutNullEnds (r : Record) : Record :=
  { r with
    source := r.source.filter fun v => !v.isNull
    destination := r.destination.filter fun v => !v.isNull }

/-- What stands under a key can be decoded: an id is the text of one, a class is a text, and null
stands for neither. -/
structure Fits (key : String) (value : Value) : Prop where
  id : key = "@rid" → value = .null ∨
    ∃ text id, value = .string text ∧ RecordId.parse? .stored text = some id
  className : key = "@class" → value = .null ∨ ∃ text, value = .string text

-- ---------------------------------------------------------------------------
-- Parts of the envelope
-- ---------------------------------------------------------------------------

variable {key : String} {value : Value}

theorem fits_id : Fits "@rid" value ↔ value = .null ∨
    ∃ text id, value = .string text ∧ RecordId.parse? .stored text = some id :=
  ⟨fun h => h.id rfl, fun h => ⟨fun _ => h, fun hkey => absurd hkey (by decide)⟩⟩

theorem fits_className : Fits "@class" value ↔ value = .null ∨ ∃ text, value = .string text :=
  ⟨fun h => h.className rfl, fun h => ⟨fun hkey => absurd hkey (by decide), fun _ => h⟩⟩

/-- An id that is decoded is the one that the value links to. -/
theorem optionalId?_toJson {id : Option RecordId} :
    optionalId? value.toJson = .ok id ↔ Fits "@rid" value ∧ value.link? .stored = id := by
  rw [fits_id]
  cases value with
  | null =>
    show Except.ok none = .ok id ↔ _ ∧ none = id
    simp
  | string text =>
    rw [Value.toJson, Value.link?, optionalId?]
    simp only [optionalText?, Shape.option?, Shape.text?, Except.map, bind, Except.bind]
    cases hparse : RecordId.parse? .stored text with
    | none => simp [hparse]
    | some found => simp [hparse, pure, Except.pure]
  | _ => exact ⟨fun h => (by cases h), by simp⟩

/-- A class that is decoded is the text of the value. -/
theorem optionalText?_toJson {className : Option String} :
    optionalText? value.toJson = .ok className ↔ Fits "@class" value ∧ value.text? = className := by
  rw [fits_className]
  cases value with
  | null =>
    show Except.ok none = .ok className ↔ _ ∧ none = className
    simp
  | string text =>
    show Except.ok (some text) = .ok className ↔ _ ∧ some text = className
    simp
  | _ => exact ⟨fun h => (by cases h), by simp⟩

/-- The time of deletion is whatever is written, but for null. -/
theorem optionalValue?_toJson :
    optionalValue? value.toJson = (some value).filter fun v => !v.isNull := by
  have hback := Value.ofJson_toJson value
  cases value with
  | null => rfl
  | _ => exact congrArg some hback

-- ---------------------------------------------------------------------------
-- Member by member
-- ---------------------------------------------------------------------------

variable {seen entries : List (String × Value)} {r : Record}

/-- The record of entries with one more behind them. -/
theorem ofEntries_concat (h : ∀ entry ∈ seen, entry.1 < key) :
    ofEntries (seen ++ [(key, value)]) =
      { id := if key = "@rid" then value.link? .stored else (ofEntries seen).id
        className := if key = "@class" then value.text? else (ofEntries seen).className
        deletedAt := if key = "deletedAt" then (some value).filter fun v => !v.isNull
          else (ofEntries seen).deletedAt
        source := if key = "out" then some value else (ofEntries seen).source
        destination := if key = "in" then some value else (ofEntries seen).destination
        properties := if envelopeKeys.contains key then (ofEntries seen).properties
          else (ofEntries seen).properties ++ [(key, value)] } := by
  -- only the properties grow by an entry; every other field looks for one key
  have hproperties : (seen ++ [(key, value)]).filter (fun e => !envelopeKeys.contains e.1) =
      if envelopeKeys.contains key then seen.filter (fun e => !envelopeKeys.contains e.1)
      else seen.filter (fun e => !envelopeKeys.contains e.1) ++ [(key, value)] := by
    rw [List.filter_append, List.filter_cons, List.filter_nil]
    cases envelopeKeys.contains key <;> simp
  simp only [ofEntries, Dictionary.find?_concat _ _ h, hproperties]
  congr 1 <;> split <;> rfl

/-- One more member is one more entry, and the ends of an edge leave no trace when they are null.
Decoding fails for the value of this member or for a later one. -/
theorem ofMembers?_cons_iff (hlast : ∀ entry ∈ seen, entry.1 < key) (rest : List (String × Json)) :
    ofMembers? (ofEntries seen).withoutNullEnds ((key, value.toJson) :: rest) = .ok r ↔
      Fits key value ∧
        ofMembers? (ofEntries (seen ++ [(key, value)])).withoutNullEnds rest = .ok r := by
  rw [ofEntries_concat hlast]
  -- only an id and a class may fail to be decoded
  by_cases hid : key = "@rid"
  · subst hid
    rw [ofMembers?, bind_eq_ok]
    simp only [optionalId?_toJson, and_assoc, exists_and_left, exists_eq_left']
    rfl
  by_cases hclass : key = "@class"
  · subst hclass
    rw [ofMembers?, bind_eq_ok]
    simp only [optionalText?_toJson, and_assoc, exists_and_left, exists_eq_left']
    rfl
  have hfits : Fits key value := ⟨fun h => absurd h hid, fun h => absurd h hclass⟩
  rw [and_iff_right hfits]
  by_cases htime : key = "deletedAt"
  · subst htime
    rw [ofMembers?, optionalValue?_toJson]
    rfl
  by_cases hout : key = "out"
  · subst hout
    rw [ofMembers?, optionalValue?_toJson]
    rfl
  by_cases hin : key = "in"
  · subst hin
    rw [ofMembers?, optionalValue?_toJson]
    rfl
  have hproperty : envelopeKeys.contains key = false := by
    simp [envelopeKeys, hid, hclass, htime, hout, hin]
  have hinsert : Dictionary.insert key value (ofEntries seen).properties =
      (ofEntries seen).properties ++ [(key, value)] :=
    Dictionary.insert_eq_concat value fun entry hmem => hlast entry (List.mem_filter.1 hmem).1
  rw [ofMembers?, Value.ofJson_toJson]
  · simp only [hid, hclass, htime, hout, hin, hproperty, if_false]
    dsimp only [withoutNullEnds]
    rw [hinsert]
    rfl
  all_goals assumption

/-- The members of a map are decoded if they fit, and null ends of an edge are left out. The
induction is on the members to come, for any that were seen. -/
theorem ofMembers?_toMembers {rest : List (String × Value)}
    (h : Dictionary.Ordered (seen ++ rest)) :
    ofMembers? (ofEntries seen).withoutNullEnds (Value.toMembers rest) = .ok r ↔
      (∀ entry ∈ rest, Fits entry.1 entry.2) ∧ (ofEntries (seen ++ rest)).withoutNullEnds = r := by
  induction rest generalizing seen with
  | nil =>
    rw [List.append_nil, Value.toMembers, ofMembers?]
    simp
  | cons entry rest ih =>
    obtain ⟨key, value⟩ := entry
    -- the members come in the order of their keys, so the next one is behind all that were seen
    have hlast : ∀ entry ∈ seen, entry.1 < key :=
      fun entry hmem => (List.pairwise_append.1 h).2.2 entry hmem _ (List.mem_cons_self ..)
    have happend : seen ++ (key, value) :: rest = seen ++ [(key, value)] ++ rest :=
      List.append_cons ..
    rw [happend] at h ⊢
    rw [Value.toMembers, ofMembers?_cons_iff hlast, ih h, List.forall_mem_cons, and_assoc]

/-- Which maps are decoded, and as which record. -/
theorem ofJson?_toJson_eq_ok (h : Dictionary.Ordered entries) :
    ofJson? (Value.map entries).toJson = .ok r ↔
      (∀ entry ∈ entries, Fits entry.1 entry.2) ∧ (ofEntries entries).withoutNullEnds = r := by
  rw [Value.toJson, ofJson?]
  exact ofMembers?_toMembers (show Dictionary.Ordered ([] ++ entries) from h)

-- ---------------------------------------------------------------------------
-- The two readings
-- ---------------------------------------------------------------------------

/-- A record has no null ends if its ends are not null. -/
theorem withoutNullEnds_eq_self_iff :
    r.withoutNullEnds = r ↔ r.source ≠ some .null ∧ r.destination ≠ some .null := by
  have hend (e : Option Value) : e.filter (fun v => !v.isNull) = e ↔ e ≠ some .null := by
    cases e with
    | none => simp
    | some v => cases v <;> simp [Value.isNull]
  rw [← hend, ← hend]
  obtain ⟨id, className, deletedAt, source, destination, properties⟩ := r
  simp [withoutNullEnds]

/-- The two readings of a map differ in null ends of an edge only. They give one record if and only
if the map has none, and readers by group may see the one if and only if they may see the other. -/
theorem ofEntries_eq_iff (h : Dictionary.Ordered entries)
    (hread : ofJson? (Value.map entries).toJson = .ok r) :
    (ofEntries entries).withoutNullEnds = r ∧
      (ofEntries entries = r ↔
        ∀ key ∈ ["out", "in"], Dictionary.find? key entries ≠ some .null) ∧
      ∀ history access,
        isShown history (ReadPolicy.viewer? access) (ofEntries entries) =
          isShown history (ReadPolicy.viewer? access) r := by
  obtain ⟨-, rfl⟩ := (ofJson?_toJson_eq_ok h).1 hread
  refine ⟨rfl, ?_, fun history access => ?_⟩
  · rw [eq_comm, withoutNullEnds_eq_self_iff]
    simp [ofEntries]
  · exact Bool.eq_iff_iff.2
      ⟨isShown_congr rfl fun hdeleted => hdeleted, isShown_congr rfl fun hdeleted => hdeleted⟩

/-- A map with every part of the envelope, an end of which is a record of its own. -/
theorem ofEntries_eq_iff_evidence :
    let entries : List (String × Value) :=
      [("@class", .string "AliasOf"), ("@rid", .string "#1:0"), ("deletedAt", .null),
        ("in", .map [("@rid", .string "#40:2"), ("out", .null)]), ("name", .null),
        ("out", .string "#40:1")]
    let r : Record :=
      { id := some ⟨1, 0⟩
        className := some "AliasOf"
        source := some (.string "#40:1")
        destination := some (.map [("@rid", .string "#40:2"), ("out", .null)])
        properties := [("name", .null)] }
    ofJson? (Value.map entries).toJson = .ok r ∧ ofEntries entries = r := by
  intro entries r
  have hordered : Dictionary.Ordered entries := by decide +kernel
  have hread : ofJson? (Value.map entries).toJson = .ok r := rfl
  -- the null inside the end is part of that end, so it is no end that is null
  exact ⟨hread, (ofEntries_eq_iff hordered hread).2.1.2 (by simp [entries, Dictionary.find?])⟩

/-- An edge that comes from nowhere: the row has no source, the map has the source null. -/
theorem ofEntries_ne_aliasOf :
    let entries : List (String × Value) :=
      [("@class", .string "AliasOf"), ("@rid", .string "#1:0"), ("in", .string "#40:2"),
        ("out", .null)]
    ∃ r, ofJson? (Value.map entries).toJson = .ok r ∧ ofEntries entries ≠ r := by
  intro entries
  have hread : ofJson? (Value.map entries).toJson =
      .ok { id := some ⟨1, 0⟩
            className := some "AliasOf"
            destination := some (.string "#40:2") } := rfl
  refine ⟨_, hread, fun hequal => ?_⟩
  cases congrArg Record.source hequal

end Record

end RecordQuery
