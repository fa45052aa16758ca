/-!
# Dictionaries

A dictionary is a list of entries with increasing keys, one entry for each key. Keys are ordered
as texts, character by character. `insert` keeps the order and replaces the value of a key that is
present; `ofList` inserts entries one after another, so that the last one with a key counts.

A recursive type that holds a dictionary of itself writes the list type out, which is why a
dictionary is a list and its order (`Ordered`) a separate statement.

* `find?_insert`: what an insertion changes.
* `find?_eq_some_iff`: a value is found under the key of its entry.
* `ordered_insert`, `ordered_ofList`: insertion keeps the order.
* `exists_insert_eq`, `insert_perm`, `keys_insert_congr`: which entries and keys an insertion
  leads to.
* `ofList_cons`, `find?_ofList_eq_getLast?`: which of several entries with one key counts.
-/

namespace RecordQuery

/-- Entries in the order of their keys. -/
abbrev Dictionary (α : Type) := List (String × α)

namespace Dictionary

variable {α β : Type}

/-- Adds an entry, in place of one with the same key. -/
def insert (key : String) (value : α) : List (String × α) → List (String × α)
  | [] => [(key, value)]
  | (k, v) :: rest =>
    if key < k then (key, value) :: (k, v) :: rest
    else if key = k then (key, value) :: rest
    else (k, v) :: insert key value rest

/-- The value under a key. -/
def find? (key : String) : List (String × α) → Option α
  | [] => none
  | (k, v) :: rest => if k = key then some v else find? key rest

/-- Whether a key is present. -/
def contains (key : String) (d : List (String × α)) : Bool := (find? key d).isSome

/-- The keys in order. -/
def keys (d : List (String × α)) : List String := d.map (·.1)

/-- Without the entry of a key. -/
def erase (key : String) (d : List (String × α)) : List (String × α) :=
  d.filter fun (k, _) => k ≠ key

/-- The entries of the second list inserted into the first. -/
def extend (d : List (String × α)) (entries : List (String × α)) : List (String × α) :=
  entries.foldl (fun d (k, v) => insert k v d) d

/-- The dictionary of a list of entries. -/
def ofList (entries : List (String × α)) : List (String × α) := extend [] entries

/-- The keys increase. -/
def Ordered (d : List (String × α)) : Prop := d.Pairwise fun a b => a.1 < b.1

instance (d : List (String × α)) : Decidable (Ordered d) :=
  inferInstanceAs (Decidable (d.Pairwise _))

@[simp]
theorem ordered_nil : Ordered ([] : List (String × α)) := List.Pairwise.nil

@[simp]
theorem ordered_singleton (entry : String × α) : Ordered [entry] := List.pairwise_singleton _ entry

theorem find?_insert (key k : String) (value : α) (d : List (String × α)) :
    find? k (insert key value d) = if key = k then some value else find? k d := by
  induction d with
  | nil => simp [insert, find?]
  | cons entry rest ih =>
    obtain ⟨k', v'⟩ := entry
    unfold insert
    split
    · simp [find?]
    · split
      · next h => subst h; by_cases hk : key = k <;> simp [find?, hk]
      · next h =>
        by_cases hk : k' = k
        · subst hk; simp [find?, h]
        · simp [find?, hk, ih]

/-- Inserting brings in no entry but the new one. -/
theorem mem_insert {key : String} {value : α} {d : List (String × α)} {entry : String × α}
    (h : entry ∈ insert key value d) : entry = (key, value) ∨ entry ∈ d := by
  induction d with
  | nil => simpa [insert] using h
  | cons first rest ih =>
    obtain ⟨k, v⟩ := first
    unfold insert at h
    -- in front of the first entry, in its place, or behind it
    split at h
    · simpa using h
    · split at h
      · rcases List.mem_cons.1 h with h | h
        · exact .inl h
        · exact .inr (List.mem_cons_of_mem _ h)
      · rcases List.mem_cons.1 h with h | h
        · exact .inr (by simp [h])
        · rcases ih h with h | h
          · exact .inl h
          · exact .inr (List.mem_cons_of_mem _ h)

/-- Inserting keeps the keys in order: the new entry goes in front of the first larger key, or takes
the place of its own. -/
theorem ordered_insert {key : String} {value : α} {d : List (String × α)} (h : Ordered d) :
    Ordered (insert key value d) := by
  induction d with
  | nil => simp [insert, Ordered]
  | cons first rest ih =>
    obtain ⟨k, v⟩ := first
    obtain ⟨hfirst, hrest⟩ := List.pairwise_cons.1 h
    unfold insert
    split
    · next hlt =>
      refine List.pairwise_cons.2 ⟨fun entry hmem => ?_, h⟩
      rcases List.mem_cons.1 hmem with rfl | hmem
      · exact hlt
      · exact String.lt_trans hlt (hfirst entry hmem)
    · split
      · next heq => exact List.pairwise_cons.2 ⟨fun entry hmem => heq ▸ hfirst entry hmem, hrest⟩
      · next hnlt hne =>
        refine List.pairwise_cons.2 ⟨fun entry hmem => ?_, ih hrest⟩
        rcases mem_insert hmem with rfl | hmem
        · exact Std.lt_of_le_of_ne (Std.not_lt.1 hnlt) (Ne.symm hne)
        · exact hfirst entry hmem

theorem ordered_extend {d entries : List (String × α)} (h : Ordered d) :
    Ordered (extend d entries) := by
  induction entries generalizing d with
  | nil => exact h
  | cons entry rest ih => exact ih (ordered_insert h)

theorem mem_extend {d entries : List (String × α)} {entry : String × α}
    (h : entry ∈ extend d entries) : entry ∈ d ∨ entry ∈ entries := by
  induction entries generalizing d with
  | nil => exact .inl h
  | cons first rest ih =>
    rcases ih h with hd | hrest
    · rcases mem_insert hd with rfl | hd
      · exact .inr (List.mem_cons_self ..)
      · exact .inl hd
    · exact .inr (List.mem_cons_of_mem _ hrest)

theorem ordered_ofList (entries : List (String × α)) : Ordered (ofList entries) :=
  ordered_extend ordered_nil

theorem mem_of_mem_ofList {entries : List (String × α)} {entry : String × α}
    (h : entry ∈ ofList entries) : entry ∈ entries :=
  (mem_extend h).resolve_left List.not_mem_nil

theorem find?_isSome_iff {key : String} {d : List (String × α)} :
    (find? key d).isSome ↔ key ∈ keys d := by
  induction d with
  | nil => simp [find?, keys]
  | cons entry rest ih =>
    obtain ⟨k, v⟩ := entry
    rw [find?, keys, List.map_cons, List.mem_cons, ← keys, ← ih]
    by_cases hk : k = key
    · simp [hk]
    · simp [hk, Ne.symm hk]

theorem mem_of_find? {key : String} {value : α} {d : List (String × α)}
    (h : find? key d = some value) : (key, value) ∈ d := by
  induction d with
  | nil => cases h
  | cons entry rest ih =>
    obtain ⟨k, v⟩ := entry
    rw [find?] at h
    split at h
    · next hk =>
      rw [hk, Option.some.inj h]
      exact List.mem_cons_self ..
    · exact List.mem_cons_of_mem _ (ih h)

theorem find?_eq_none_of_lt {key : String} {d : List (String × α)} (h : ∀ entry ∈ d, key < entry.1) :
    find? key d = none := by
  cases hfound : find? key d with
  | none => rfl
  | some v => exact absurd (h _ (mem_of_find? hfound)) (Std.lt_irrefl (a := key))

/-- The value under a key is that of its entry. -/
theorem find?_eq_some_iff {key : String} {value : α} {d : List (String × α)} (h : Ordered d) :
    find? key d = some value ↔ (key, value) ∈ d := by
  refine ⟨mem_of_find?, fun hmem => ?_⟩
  induction d with
  | nil => cases hmem
  | cons first rest ih =>
    obtain ⟨k, v⟩ := first
    obtain ⟨hfirst, hrest⟩ := List.pairwise_cons.1 h
    rcases List.mem_cons.1 hmem with heq | hmem
    · cases heq
      exact if_pos rfl
    -- the keys behind the first are larger, so the first key is not found again
    · have hne : k ≠ key := by
        rintro rfl
        exact Std.lt_irrefl (a := k) (hfirst _ hmem)
      rw [find?, if_neg hne]
      exact ih hrest hmem

/-- An entry behind all others is found under its key only. -/
theorem find?_concat {key : String} (k : String) (value : α) {d : List (String × α)}
    (h : ∀ entry ∈ d, entry.1 < key) :
    find? k (d ++ [(key, value)]) = if key = k then some value else find? k d := by
  induction d with
  | nil => rfl
  | cons first rest ih =>
    obtain ⟨l, v⟩ := first
    obtain ⟨hfirst, hrest⟩ := List.forall_mem_cons.1 h
    rw [List.cons_append, find?, find?, ih hrest]
    by_cases hkey : key = k
    · subst hkey
      have hne : l ≠ key := fun heq => Std.lt_irrefl (a := key) (heq ▸ hfirst)
      rw [if_neg hne]
      simp
    · rw [if_neg hkey, if_neg hkey]

/-- An entry with a key beyond all others is put behind them. -/
theorem insert_eq_concat {key : String} (value : α) {d : List (String × α)}
    (h : ∀ entry ∈ d, entry.1 < key) : insert key value d = d ++ [(key, value)] := by
  induction d with
  | nil => rfl
  | cons first rest ih =>
    obtain ⟨k, v⟩ := first
    obtain ⟨hfirst, hrest⟩ := List.forall_mem_cons.1 h
    have hne : key ≠ k := fun heq => Std.lt_irrefl (a := key) (heq ▸ hfirst)
    rw [insert, if_neg (Std.not_lt.2 (Std.le_of_lt hfirst)), if_neg hne, ih hrest, List.cons_append]

/-- The first key of a dictionary does not come again. -/
theorem find?_eq_none_of_ordered {key : String} {value : α} {rest : List (String × α)}
    (h : Ordered ((key, value) :: rest)) : find? key rest = none :=
  find?_eq_none_of_lt (List.pairwise_cons.1 h).1

/-- No key that is found stands before the first one. -/
theorem not_lt_of_find? {key first : String} {v w : α} {rest : List (String × α)}
    (h : Ordered ((first, v) :: rest)) (hfound : find? key ((first, v) :: rest) = some w) :
    ¬ key < first := by
  intro hlt
  have hmissing : find? key ((first, v) :: rest) = none := by
    refine find?_eq_none_of_lt fun entry hmem => ?_
    rcases List.mem_cons.1 hmem with rfl | hmem
    · exact hlt
    · exact String.lt_trans hlt ((List.pairwise_cons.1 h).1 entry hmem)
  rw [hmissing] at hfound
  cases hfound

/-- A dictionary is known by what is found in it. -/
theorem eq_of_find?_eq {d e : List (String × α)} (hd : Ordered d) (he : Ordered e)
    (h : ∀ key, find? key d = find? key e) : d = e := by
  induction d generalizing e with
  | nil =>
    cases e with
    | nil => rfl
    | cons entry others => simpa [find?] using h entry.1
  | cons first rest ih =>
    obtain ⟨k, v⟩ := first
    cases e with
    | nil => simpa [find?] using h k
    | cons entry others =>
      obtain ⟨l, w⟩ := entry
      have hk : find? k ((l, w) :: others) = some v := by rw [← h k]; simp [find?]
      have hl : find? l ((k, v) :: rest) = some w := by rw [h l]; simp [find?]
      -- neither first key can be smaller, as the other dictionary would have to hold it further
      -- back
      obtain rfl : k = l :=
        Std.le_antisymm (Std.not_lt.1 (not_lt_of_find? hd hl)) (Std.not_lt.1 (not_lt_of_find? he hk))
      obtain rfl : w = v := by simpa [find?] using hk
      have hrest : rest = others := by
        refine ih (List.pairwise_cons.1 hd).2 (List.pairwise_cons.1 he).2 fun key => ?_
        by_cases hkey : k = key
        · subst hkey
          rw [find?_eq_none_of_ordered hd, find?_eq_none_of_ordered he]
        · simpa [find?, hkey] using h key
      rw [hrest]

/-- Entries that are inserted hide those that were there. -/
theorem find?_extend (key : String) (d entries : List (String × α)) :
    find? key (extend d entries) = (find? key (ofList entries)).or (find? key d) := by
  suffices hstep : ∀ reversed : List (String × α), find? key (extend d reversed.reverse) =
      (find? key (ofList reversed.reverse)).or (find? key d) by
    simpa using hstep entries.reverse
  intro reversed
  induction reversed with
  | nil => rfl
  | cons entry rest ih =>
    rw [List.reverse_cons, ofList, extend, extend, List.foldl_append, List.foldl_append]
    show find? key (insert entry.1 entry.2 (extend d rest.reverse)) =
      (find? key (insert entry.1 entry.2 (ofList rest.reverse))).or (find? key d)
    rw [find?_insert, find?_insert, ih]
    split <;> rfl

theorem find?_ofList {key : String} {d : List (String × α)} (h : Ordered d) :
    find? key (ofList d) = find? key d := by
  induction d with
  | nil => rfl
  | cons first rest ih =>
    obtain ⟨k, v⟩ := first
    show find? key (extend [(k, v)] rest) = _
    rw [find?_extend, ih (List.pairwise_cons.1 h).2]
    by_cases hkey : k = key
    · subst hkey
      rw [find?_eq_none_of_ordered h]
      simp [find?]
    · simp [find?, hkey]

/-- The dictionary of a dictionary is that dictionary. -/
theorem ofList_eq_self {d : List (String × α)} (h : Ordered d) : ofList d = d :=
  eq_of_find?_eq (ordered_ofList d) h fun _ => find?_ofList h

theorem find?_ofList_cons (k key : String) (value : α) (rest : List (String × α)) :
    find? k (ofList ((key, value) :: rest)) =
      (find? k (ofList rest)).or (if key = k then some value else none) :=
  find?_extend k [(key, value)] rest

/-- An entry that is followed by another one with its key leaves no trace. -/
theorem ofList_cons (key : String) (value : α) (rest : List (String × α)) :
    ofList ((key, value) :: rest) =
      if (find? key (ofList rest)).isSome then ofList rest else insert key value (ofList rest) := by
  have hrest : Ordered (ofList rest) := ordered_ofList rest
  -- compared key by key: the entry counts unless a later one has its key
  by_cases hlater : (find? key (ofList rest)).isSome
  · rw [if_pos hlater]
    refine eq_of_find?_eq (ordered_ofList _) hrest fun k => ?_
    rw [find?_ofList_cons]
    by_cases hk : key = k
    · subst hk
      exact Option.or_of_isSome hlater
    · rw [if_neg hk, Option.or_none]
  · rw [if_neg hlater]
    refine eq_of_find?_eq (ordered_ofList _) (ordered_insert hrest) fun k => ?_
    rw [find?_ofList_cons, find?_insert]
    by_cases hk : key = k
    · subst hk
      rw [if_pos rfl, Option.not_isSome_iff_eq_none.1 hlater, Option.none_or, if_pos rfl]
    · rw [if_neg hk, Option.or_none, if_neg hk]

/-- The last entry with a key counts. -/
theorem find?_ofList_eq_getLast? (key : String) (entries : List (String × α)) :
    find? key (ofList entries) =
      ((entries.filter fun entry => entry.1 = key).getLast?).map (·.2) := by
  induction entries with
  | nil => rfl
  | cons entry rest ih =>
    obtain ⟨k, v⟩ := entry
    rw [find?_ofList_cons, ih, List.filter_cons]
    by_cases hk : k = key
    · cases hlast : (rest.filter fun entry => entry.1 = key).getLast? <;>
        simp [hk, List.getLast?_cons, hlast]
    · simp [hk]

theorem insert_map (f : α → β) (key : String) (value : α) (d : List (String × α)) :
    insert key (f value) (d.map (Prod.map id f)) = (insert key value d).map (Prod.map id f) := by
  induction d with
  | nil => rfl
  | cons entry rest ih =>
    obtain ⟨k, v⟩ := entry
    rw [List.map_cons, Prod.map_apply, id, insert, insert]
    split
    · rfl
    · split
      · rfl
      · rw [ih]
        rfl

/-- Values may be worked out before or after entries are put together. -/
theorem ofList_map (f : α → β) (entries : List (String × α)) :
    ofList (entries.map (Prod.map id f)) = (ofList entries).map (Prod.map id f) := by
  suffices hextend : ∀ d : List (String × α),
      extend (d.map (Prod.map id f)) (entries.map (Prod.map id f)) =
        (extend d entries).map (Prod.map id f) from hextend []
  induction entries with
  | nil => exact fun d => rfl
  | cons entry rest ih =>
    intro d
    obtain ⟨k, v⟩ := entry
    show extend (insert k (f v) (d.map (Prod.map id f))) (rest.map (Prod.map id f)) = _
    rw [insert_map, ih]
    rfl

theorem mem_keys_insert {key k : String} {value : α} {d : List (String × α)} :
    k ∈ keys (insert key value d) ↔ k = key ∨ k ∈ keys d := by
  rw [← find?_isSome_iff, ← find?_isSome_iff, find?_insert]
  by_cases hk : key = k
  · simp [hk]
  · simp [hk, Ne.symm hk]

/-- An entry with a new key is put between the others. -/
theorem exists_insert_eq {key : String} (value : α) {d : List (String × α)} (h : key ∉ keys d) :
    ∃ front back, d = front ++ back ∧ insert key value d = front ++ (key, value) :: back := by
  induction d with
  | nil => exact ⟨[], [], rfl, rfl⟩
  | cons entry rest ih =>
    obtain ⟨k, v⟩ := entry
    rw [keys, List.map_cons, List.mem_cons, not_or, ← keys] at h
    obtain ⟨hne, hrest⟩ := h
    rw [insert, if_neg hne]
    split
    · exact ⟨[], (k, v) :: rest, rfl, rfl⟩
    · obtain ⟨front, back, hd, hinsert⟩ := ih hrest
      exact ⟨(k, v) :: front, back, congrArg _ hd, congrArg _ hinsert⟩

/-- An entry with a new key joins the others. -/
theorem insert_perm {key : String} {value : α} {d : List (String × α)} (h : key ∉ keys d) :
    (insert key value d).Perm ((key, value) :: d) := by
  obtain ⟨front, back, rfl, hinsert⟩ := exists_insert_eq value h
  rw [hinsert]
  exact List.perm_middle

/-- Which keys there are does not depend on the values. -/
theorem keys_insert_congr (key : String) (v : α) (w : β) {d : List (String × α)}
    {e : List (String × β)} (h : keys d = keys e) :
    keys (insert key v d) = keys (insert key w e) := by
  induction d generalizing e with
  | nil =>
    cases e with
    | nil => rfl
    | cons entry rest => cases h
  | cons first rest ih =>
    cases e with
    | nil => cases h
    | cons entry others =>
      obtain ⟨k, a⟩ := first
      obtain ⟨l, b⟩ := entry
      obtain ⟨hkl, hrest⟩ := List.cons.inj h
      dsimp only at hkl hrest
      subst hkl
      rw [insert, insert]
      -- where the new key goes is decided by the keys alone
      split
      · simpa [keys] using hrest
      · split
        · simpa [keys] using hrest
        · simpa [keys] using ih hrest

end Dictionary

end RecordQuery
