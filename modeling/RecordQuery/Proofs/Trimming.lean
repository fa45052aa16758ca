import RecordQuery.Proofs.WellFormed
import RecordQuery.Visibility

/-!
# What trimming leaves in an answer

A record may come inside a value: in a map, in a list of lists, inside another record, or as an end
of an edge. Trimming drops the hidden ones from the properties of the records of an answer, and does
not look at the ends of an edge at the top level.

* `Value.Contains` — a record stands somewhere in a value.
* `Value.clean_of_trim?` — nothing hidden is left in a trimmed value. A record is judged before what
  stands inside it is dropped, so it has to be shown that it is not hidden afterwards:
  `Record.isShown_ofEntries_trimEntries`.
* `Record.trimAll_isClean_iff` — nothing hidden is left in an answer if and only if the ends of its
  edges hold nothing hidden from the start.
-/

namespace RecordQuery

-- ---------------------------------------------------------------------------
-- Records inside values
-- ---------------------------------------------------------------------------

namespace Value

/-- The record of the entries `found` stands in a value, at any depth. -/
inductive Contains (found : List (String × Value)) : Value → Prop
  | here : isRecord found = true → Contains found (.map found)
  | item {items : List Value} {item : Value} : item ∈ items → Contains found item →
      Contains found (.list items)
  | entry {entries : List (String × Value)} {key : String} {value : Value} :
      (key, value) ∈ entries → Contains found value → Contains found (.map entries)

/-- No hidden record stands in a value. -/
def IsClean (hidden : Record → Prop) (v : Value) : Prop :=
  ∀ found, Contains found v → ¬ hidden (Record.ofEntries found)

end Value

/-- The viewer that a user is under a policy, if there is a user. -/
def ReadPolicy.viewer? (access : Option (ReadPolicy × Record)) : Option Viewer :=
  access.map fun a => a.1.viewer a.2

namespace Record

/-- The ends of an edge. -/
def ends (r : Record) : List Value := r.source.toList ++ r.destination.toList

/-- A record is deleted and the history is not asked for, or the viewer may not read it. -/
def IsHidden (history : Bool) (viewer : Option Viewer) (r : Record) : Prop :=
  (history = false ∧ r.isDeleted = true) ∨ ∃ v ∈ viewer, v.sees r = false

/-- Nothing hidden is in a record of an answer: neither the record itself nor what stands in its
properties or in its ends. -/
structure IsClean (hidden : Record → Prop) (r : Record) : Prop where
  shown : ¬ hidden r
  properties : ∀ entry ∈ r.properties, entry.2.IsClean hidden
  ends : ∀ e ∈ r.ends, e.IsClean hidden

/-- A record is shown exactly if it is not hidden. -/
theorem isShown_iff {history : Bool} {viewer : Option Viewer} {r : Record} :
    isShown history viewer r = true ↔ ¬ r.IsHidden history viewer := by
  rw [isShown, IsHidden, not_or, Bool.and_eq_true]
  refine and_congr ?_ ?_
  · cases history <;> simp
  · cases viewer <;> simp

end Record

-- ---------------------------------------------------------------------------
-- Trimmed entries
-- ---------------------------------------------------------------------------

namespace Value

variable {keep : Record → Bool}

/-- An item of a trimmed list is what is left of an item. -/
theorem mem_trimItems {items : List Value} {w : Value} :
    w ∈ trimItems keep items ↔ ∃ v ∈ items, trim? keep v = some w := by
  induction items with
  | nil => simp [trimItems]
  | cons v rest ih => simp [trimItems, ih]

/-- An entry of a trimmed map is what is left of an entry under that key: trimming moves nothing to
another key. -/
theorem mem_trimEntries {entries : List (String × Value)} {key : String} {w : Value} :
    (key, w) ∈ trimEntries keep entries ↔ ∃ v, (key, v) ∈ entries ∧ trim? keep v = some w := by
  induction entries with
  | nil => simp [trimEntries]
  | cons entry rest ih =>
    obtain ⟨k, v⟩ := entry
    rw [trimEntries, List.mem_append, ih]
    constructor
    · rintro (h | ⟨v', hmem, htrim⟩)
      · rw [Option.mem_toList, Option.map_eq_some_iff] at h
        obtain ⟨u, hu, heq⟩ := h
        obtain ⟨rfl, rfl⟩ := Prod.mk.inj heq
        exact ⟨v, List.mem_cons_self .., hu⟩
      · exact ⟨v', List.mem_cons_of_mem _ hmem, htrim⟩
    · rintro ⟨v', hmem, htrim⟩
      rcases List.mem_cons.1 hmem with heq | hmem
      · obtain ⟨rfl, rfl⟩ := Prod.mk.inj heq
        exact .inl (by simp [htrim])
      · exact .inr ⟨v', hmem, htrim⟩

/-- What is found under a key is what was found there before, trimmed. An entry that is dropped is
not replaced by a later one of the same key, as there is none. -/
theorem find?_trimEntries {entries : List (String × Value)} (h : Dictionary.Ordered entries)
    (key : String) :
    Dictionary.find? key (trimEntries keep entries) =
      (Dictionary.find? key entries).bind (trim? keep) := by
  induction entries with
  | nil => rfl
  | cons entry rest ih =>
    obtain ⟨k, v⟩ := entry
    have hrest := ih (List.pairwise_cons.1 h).2
    -- a later entry of the same key would be found in its stead, but the keys are in order
    by_cases hkey : k = key
    · subst hkey
      have hlast : Dictionary.find? k rest = none := Dictionary.find?_eq_none_of_ordered h
      rw [hlast, Option.bind_none] at hrest
      cases htrim : trim? keep v with
      | none => simpa [trimEntries, Dictionary.find?, htrim] using hrest
      | some w => simp [trimEntries, Dictionary.find?, htrim]
    · cases htrim : trim? keep v with
      | none => simpa [trimEntries, Dictionary.find?, htrim, hkey] using hrest
      | some w => simpa [trimEntries, Dictionary.find?, htrim, hkey] using hrest

/-- Trimming brings in no key. -/
theorem isSome_of_find?_trimEntries {entries : List (String × Value)} {key : String}
    (h : Dictionary.Ordered entries)
    (hfound : (Dictionary.find? key (trimEntries keep entries)).isSome = true) :
    (Dictionary.find? key entries).isSome = true := by
  rw [find?_trimEntries h, Option.isSome_iff_exists] at hfound
  obtain ⟨w, hw⟩ := hfound
  obtain ⟨v, hv, -⟩ := Option.bind_eq_some_iff.1 hw
  rw [hv]
  rfl

/-- A map that is a record when it is trimmed was one before. -/
theorem isRecord_of_trimEntries {entries : List (String × Value)} (h : Dictionary.Ordered entries)
    (hrecord : isRecord (trimEntries keep entries) = true) : isRecord entries = true := by
  rw [isRecord, Bool.or_eq_true] at hrecord ⊢
  exact hrecord.imp (isSome_of_find?_trimEntries h) (isSome_of_find?_trimEntries h)

mutual

/-- Where every record is kept, a value stays as it is. -/
theorem trim?_eq_self (hkeep : ∀ r, keep r = true) (v : Value) : trim? keep v = some v := by
  match v with
  | .null => rfl
  | .bool flag => rfl
  | .int n => rfl
  | .float x => rfl
  | .string s => rfl
  | .list items => rw [trim?, trimItems_eq_self hkeep items]
  | .map entries => simp [trim?, hkeep, trimEntries_eq_self hkeep entries]

/-- Where every record is kept, a list stays as it is. -/
theorem trimItems_eq_self (hkeep : ∀ r, keep r = true) (items : List Value) :
    trimItems keep items = items := by
  match items with
  | [] => rfl
  | item :: rest => simp [trimItems, trim?_eq_self hkeep item, trimItems_eq_self hkeep rest]

/-- Where every record is kept, a map stays as it is. -/
theorem trimEntries_eq_self (hkeep : ∀ r, keep r = true) (entries : List (String × Value)) :
    trimEntries keep entries = entries := by
  match entries with
  | [] => rfl
  | (key, value) :: rest =>
    simp [trimEntries, trim?_eq_self hkeep value, trimEntries_eq_self hkeep rest]

end

/-- Trimming leaves texts as they are and turns nothing into a text. -/
theorem text?_trim? (v : Value) : (trim? keep v).bind text? = text? v := by
  cases v with
  | map entries =>
    rw [trim?]
    split <;> rfl
  | _ => rfl

/-- Trimming turns nothing into null. -/
theorem isNull_of_trim? {v w : Value} (h : trim? keep v = some w) (hv : v.isNull = true) :
    w.isNull = true := by
  cases v with
  | null =>
    cases h
    rfl
  | _ => cases hv

end Value

-- ---------------------------------------------------------------------------
-- Trimmed records
-- ---------------------------------------------------------------------------

namespace Record

variable {keep : Record → Bool} {entries : List (String × Value)}

/-- A record has its class before and after what stands in it is trimmed. -/
theorem className_ofEntries_trimEntries (h : Dictionary.Ordered entries) :
    (ofEntries (Value.trimEntries keep entries)).className = (ofEntries entries).className := by
  show (Dictionary.find? "@class" _).bind Value.text? = (Dictionary.find? "@class" _).bind Value.text?
  rw [Value.find?_trimEntries h, Option.bind_assoc]
  congr 1
  funext v
  exact Value.text?_trim? v

/-- A record is deleted when there is a time of deletion, other than null. -/
theorem isDeleted_ofEntries_iff :
    (ofEntries entries).isDeleted = true ↔
      ∃ v, Dictionary.find? "deletedAt" entries = some v ∧ v.isNull = false := by
  have htime : (ofEntries entries).deletedAt =
      (Dictionary.find? "deletedAt" entries).filter fun v => !v.isNull := rfl
  rw [isDeleted, htime]
  cases Dictionary.find? "deletedAt" entries with
  | none => simp
  | some v => cases v <;> simp [Value.isNull, Option.filter]

/-- Trimming deletes no record: a time of deletion that is left was there before. -/
theorem isDeleted_of_trimEntries (h : Dictionary.Ordered entries)
    (hdeleted : (ofEntries (Value.trimEntries keep entries)).isDeleted = true) :
    (ofEntries entries).isDeleted = true := by
  rw [isDeleted_ofEntries_iff] at hdeleted ⊢
  obtain ⟨w, hfound, hnull⟩ := hdeleted
  rw [Value.find?_trimEntries h] at hfound
  obtain ⟨v, hv, htrim⟩ := Option.bind_eq_some_iff.1 hfound
  refine ⟨v, hv, ?_⟩
  cases hvnull : v.isNull with
  | false => rfl
  | true => rw [Value.isNull_of_trim? htrim hvnull] at hnull; cases hnull

/-- Whether a record is shown depends on its class and on its deletion only: a record that keeps its
class and is deleted only if it was before is shown as before. -/
theorem isShown_congr {history : Bool} {access : Option (ReadPolicy × Record)} {r r' : Record}
    (hclass : r'.className = r.className) (hdeleted : r'.isDeleted = true → r.isDeleted = true)
    (hshown : isShown history (ReadPolicy.viewer? access) r = true) :
    isShown history (ReadPolicy.viewer? access) r' = true := by
  rw [isShown, Bool.and_eq_true, Bool.or_eq_true] at hshown ⊢
  obtain ⟨htime, hviewer⟩ := hshown
  constructor
  · rcases htime with hhistory | hnot
    · exact .inl hhistory
    -- without a time of deletion before there is none after: nothing is added
    · right
      cases hd : r'.isDeleted with
      | false => rfl
      | true => rw [hdeleted hd] at hnot; cases hnot
  · cases access with
    | none => rfl
    | some a =>
      -- the policy looks at the class of the record only
      show a.1.mayRead a.2 r' = true
      have hread : a.1.mayRead a.2 r = true := hviewer
      rw [ReadPolicy.mayRead] at hread ⊢
      rw [hclass]
      exact hread

/-- A record that is shown is still shown after what stands inside it has been dropped. -/
theorem isShown_ofEntries_trimEntries {history : Bool} {access : Option (ReadPolicy × Record)}
    (h : Dictionary.Ordered entries)
    (hshown : isShown history (ReadPolicy.viewer? access) (ofEntries entries) = true) :
    isShown history (ReadPolicy.viewer? access)
      (ofEntries (Value.trimEntries keep entries)) = true :=
  isShown_congr (className_ofEntries_trimEntries h) (isDeleted_of_trimEntries h) hshown

end Record

-- ---------------------------------------------------------------------------
-- Trimmed values
-- ---------------------------------------------------------------------------

namespace Value

variable {keep : Record → Bool} {hidden : Record → Prop}

/-- Nothing hidden is left in a trimmed value, if a record that is kept is not hidden after what
stands inside it has been trimmed. -/
theorem clean_of_trim?
    (hkeep : ∀ entries, Dictionary.Ordered entries → keep (Record.ofEntries entries) = true →
      ¬ hidden (Record.ofEntries (trimEntries keep entries)))
    {v : Value} (h : WellFormed v) {w : Value} (htrim : trim? keep v = some w) :
    w.IsClean hidden := by
  induction h generalizing w with
  | null | bool | int | float | string =>
    cases htrim
    intro found hfound
    cases hfound
  | list _ ih =>
    cases htrim
    intro found hfound
    cases hfound with
    | item hmem hin =>
      obtain ⟨v, hv, hitem⟩ := mem_trimItems.1 hmem
      exact ih v hv hitem found hin
  | @map entries hordered _ ih =>
    rw [trim?] at htrim
    split at htrim
    · cases htrim
    · next hshown =>
      cases htrim
      intro found hfound
      -- a record that is left was kept, and it is no more hidden than before it was trimmed
      cases hfound with
      | here hrecord =>
        have hbefore : isRecord entries = true := isRecord_of_trimEntries hordered hrecord
        rw [hbefore, Bool.true_and] at hshown
        exact hkeep entries hordered (by simpa using hshown)
      | entry hmem hin =>
        obtain ⟨v, hv, hentry⟩ := mem_trimEntries.1 hmem
        exact ih (_, v) hv hentry found hin

end Value

-- ---------------------------------------------------------------------------
-- Trimmed answers
-- ---------------------------------------------------------------------------

namespace Record

variable {history : Bool} {access : Option (ReadPolicy × Record)}

/-- The ends of a record are the ends it had before. -/
theorem ends_trim (keep : Record → Bool) (r : Record) : (trim keep r).ends = r.ends := rfl

/-- The answer is made of the records that are shown, each of them trimmed. -/
theorem mem_trimAll {viewer : Option Viewer} {records : List Record} {r : Record} :
    r ∈ trimAll history viewer records ↔
      ∃ before ∈ records, isShown history viewer before = true ∧
        trim (isShown history viewer) before = r := by
  simp [trimAll, and_assoc]

/-- With the history and without a viewer an answer stays as it is. -/
theorem trimAll_eq_self (records : List Record) : trimAll true none records = records := by
  have hkeep : ∀ r, isShown true none r = true := fun _ => rfl
  have htrim : trim (isShown true none) = fun r => r := by
    funext r
    rw [trim, Value.trimEntries_eq_self hkeep]
  rw [trimAll, htrim, List.map_id', List.filter_eq_self.2 fun r _ => hkeep r]

/-- A record that is shown is shown after it was trimmed. -/
theorem shown_trim {r : Record} (hshown : isShown history (ReadPolicy.viewer? access) r = true)
    (keep : Record → Bool) : ¬ (trim keep r).IsHidden history (ReadPolicy.viewer? access) := by
  have hclass : (trim keep r).className = r.className := rfl
  exact isShown_iff.1 (isShown_congr hclass (fun hdeleted => hdeleted) hshown)

/-- In the properties of a trimmed record nothing hidden is left. -/
theorem clean_properties_trim {r : Record} (h : (Value.map r.properties).WellFormed) :
    ∀ entry ∈ (trim (isShown history (ReadPolicy.viewer? access)) r).properties,
      entry.2.IsClean (IsHidden history (ReadPolicy.viewer? access)) := by
  intro entry hmem
  obtain ⟨v, hv, htrim⟩ := Value.mem_trimEntries.1 hmem
  have hvalue : v.WellFormed := (Value.wellFormed_map.1 h).2 _ hv
  refine Value.clean_of_trim? ?_ hvalue htrim
  intro entries hordered hshown
  exact isShown_iff.1 (isShown_ofEntries_trimEntries hordered hshown)

/-- The records of an answer are shown and nothing hidden is left in their properties. Nothing
hidden is left in the answer at all if and only if nothing hidden stands in the ends of the edges
that are shown. -/
theorem trimAll_isClean_iff (history : Bool) (access : Option (ReadPolicy × Record))
    (records : List Record) (h : ∀ r ∈ records, (Value.map r.properties).WellFormed) :
    let viewer := ReadPolicy.viewer? access
    let hidden := IsHidden history viewer
    (∀ r ∈ trimAll history viewer records,
      ¬ hidden r ∧ ∀ entry ∈ r.properties, entry.2.IsClean hidden) ∧
    ((∀ r ∈ trimAll history viewer records, r.IsClean hidden) ↔
      ∀ r ∈ records, ¬ hidden r → ∀ e ∈ r.ends, e.IsClean hidden) := by
  intro viewer hidden
  have hbase : ∀ r ∈ trimAll history viewer records,
      ¬ hidden r ∧ ∀ entry ∈ r.properties, entry.2.IsClean hidden := by
    intro r hmem
    obtain ⟨before, hbefore, hshown, rfl⟩ := mem_trimAll.1 hmem
    exact ⟨shown_trim hshown _, clean_properties_trim (h before hbefore)⟩
  refine ⟨hbase, ?_, ?_⟩
  -- trimming leaves the ends alone, so what is hidden in them stays in the answer
  · intro hclean r hr hshown
    have hkept := mem_trimAll.2 ⟨r, hr, isShown_iff.2 hshown, rfl⟩
    have hends := (hclean _ hkept).ends
    rw [ends_trim] at hends
    exact hends
  · intro hends r hmem
    obtain ⟨hshown, hproperties⟩ := hbase r hmem
    obtain ⟨before, hbefore, hkept, rfl⟩ := mem_trimAll.1 hmem
    refine ⟨hshown, hproperties, ?_⟩
    rw [ends_trim]
    exact hends before hbefore (isShown_iff.1 hkept)

/-- An answer with a deleted disease in a list of lists and a user that readers may not see in a map,
where the edge comes from a disease that readers may see. -/
theorem trimAll_isClean_readers :
    let policy := ReadPolicy.grant {} "readers" ["AliasOf", "Disease"]
    let user : Record := { properties := [("groups", .list [.string "readers"])] }
    let deleted : Value := .map [("@class", .string "Disease"), ("deletedAt", .int 1)]
    let secret : Value := .map [("@class", .string "User")]
    let edge : Record :=
      { className := some "AliasOf"
        source := some (.map [("@class", .string "Disease")])
        properties := [("links", .list [.list [deleted], .map [("owner", secret)]])] }
    let viewer := some (policy.viewer user)
    ∀ r ∈ trimAll false viewer [edge], r.IsClean (IsHidden false viewer) := by
  intro policy user deleted secret edge viewer
  have hkeys : Dictionary.Ordered [("@class", Value.string "Disease"), ("deletedAt", .int 1)] := by
    decide +kernel
  have hedge : (Value.map edge.properties).WellFormed := by
    simp [edge, deleted, secret, hkeys]
  have hboth := trimAll_isClean_iff false (some (policy, user)) [edge] (by simpa using hedge)
  refine hboth.2.2 ?_
  intro r hr _ e he found hfound
  rw [List.mem_singleton.1 hr] at he
  rw [List.mem_singleton.1 he] at hfound
  cases hfound with
  | here => exact isShown_iff.1 rfl
  | entry hmem hin =>
    obtain ⟨rfl, rfl⟩ := Prod.mk.inj (List.mem_singleton.1 hmem)
    cases hin

/-- The record at the end of an edge stays in the answer though it is deleted. -/
theorem not_isClean_trimAll_aliasOf :
    let deleted : Value :=
      .map [("@class", .string "Disease"), ("@rid", .string "#40:1"), ("deletedAt", .int 1)]
    let edge : Record :=
      { id := some ⟨1, 0⟩
        className := some "AliasOf"
        source := some deleted
        destination := some (.string "#40:2") }
    ¬ ∀ r ∈ trimAll false none [edge], r.IsClean (IsHidden false none) := by
  intro deleted edge h
  have hmem : edge ∈ trimAll false none [edge] := mem_trimAll.2 ⟨edge, by simp, rfl, rfl⟩
  have hends := (h edge hmem).ends deleted (by simp [ends, edge])
  exact hends _ (Value.Contains.here rfl) (.inl ⟨rfl, rfl⟩)

end Record

end RecordQuery
