import RecordQuery.Proofs.Scanning

/-!
# A nested selection is a standalone one, renumbered

A selection is rendered where the binder of the whole statement stands, and by itself from number
zero. This module shows that the two differ in the numbers alone:

* `shiftText` — a text in which the number of every placeholder is larger by the same amount. The
  placeholders are found by looking at the text, as they are when values take their place.
* `Binder.IsNumbered` — nothing is bound under a number that is still to come. Every binder that is
  handed along is of this kind, and rendering keeps it so.
* `Binder.Gains` — a binder took in the parameters of a statement under shifted names, and nothing
  else changed.
* `Selection.render_eq_shift` — the text of a nested selection is that of the standalone statement,
  shifted by the next number of the binder, and the binder gains the standalone parameters.
-/

namespace RecordQuery

-- ---------------------------------------------------------------------------
-- Shifted numbers
-- ---------------------------------------------------------------------------

namespace Binder

/-- The number in the name of a placeholder. -/
def number (key : String) : Nat := Nat.ofDigitChars 10 (key.toList.drop stem.length) 0

/-- The name of the placeholder whose number is larger by `n`. -/
def shiftName (n : Nat) (key : String) : String := name (number key + n)

/-- The number in a name is read back. -/
theorem number_name (i : Nat) : number (name i) = i := by
  have hdigits : (name i).toList.drop stem.length = Nat.toDigits 10 i := by
    rw [name, String.toList_append, Nat.toString_eq_ofList_toDigits, String.toList_ofList]
    exact List.drop_left' rfl
  rw [number, hdigits, Nat.ofDigitChars_ten_toDigits]

theorem shiftName_name (n i : Nat) : shiftName n (name i) = name (i + n) := by
  rw [shiftName, number_name]

end Binder

/-- Parameters under names whose numbers are larger by `n`. -/
def shiftParams (n : Nat) (params : Params) : Params :=
  params.map fun entry => (Binder.shiftName n entry.1, entry.2)

namespace Segment

/-- The piece with the number of its placeholder larger by `n`. -/
def shift (n : Nat) : Segment → Segment
  | .character c => .character c
  | .placeholder digits => .placeholder (Nat.toDigits 10 (Nat.ofDigitChars 10 digits 0 + n))

end Segment

/-- The text with the number of every placeholder larger by `n`. -/
def shiftText (n : Nat) (text : String) : String :=
  String.ofList (((segments text).map (Segment.shift n)).flatMap Segment.source)

namespace Draft

/-- Shifting the pieces of a draft is numbering it from a later number on. -/
theorem map_shift_segments (n m : Nat) (d : Draft) :
    (d.segments m).map (Segment.shift n) = d.segments (m + n) := by
  induction d generalizing m with
  | nil => rfl
  | cons fragment rest ih =>
    cases fragment with
    | text s =>
      rw [segments, List.map_append, List.map_map, ih, segments]
      rfl
    | literal value =>
      have hnext : m + 1 + n = m + n + 1 := by omega
      rw [segments, List.map_cons, ih, segments, Segment.shift, Nat.ofDigitChars_ten_toDigits, hnext]

/-- The pieces of a draft put together are its text: each character stands for itself, and each
placeholder for its name. -/
theorem source_segments (n : Nat) (d : Draft) :
    (d.segments n).flatMap Segment.source = (d.spell n).toList := by
  induction d generalizing n with
  | nil => rfl
  | cons fragment rest ih =>
    cases fragment with
    | text s =>
      have hcharacters : (s.toList.map Segment.character).flatMap Segment.source = s.toList := by
        rw [List.flatMap_map]
        exact List.flatMap_singleton' s.toList
      rw [segments, List.flatMap_append, hcharacters, ih, spell, String.toList_append]
    | literal value =>
      rw [segments, List.flatMap_cons, ih, spell, String.toList_append, toList_placeholder,
        Segment.source]

/-- The text of a draft is shifted by numbering it from a later number on. -/
theorem shiftText_spell {d : Draft} (hd : d.Scans) (n : Nat) :
    shiftText n (d.spell 0) = d.spell n := by
  rw [shiftText, hd.segments_spell, map_shift_segments, source_segments, Nat.zero_add,
    String.ofList_toList]

end Draft

-- ---------------------------------------------------------------------------
-- What a binder gains
-- ---------------------------------------------------------------------------

namespace Binder

/-- Every name that is bound has a number below the next one. -/
def IsNumbered (b : Binder) : Prop := ∀ key ∈ Dictionary.keys b.params, ∃ i < b.next, key = name i

/-- The binder `c` is `b` with the given parameters under names shifted by the next number of `b`. -/
structure Gains (b : Binder) (params : Params) (c : Binder) : Prop where
  next : c.next = b.next + params.length
  /-- There are no entries but the earlier and the shifted ones. -/
  entries : c.params.Perm (b.params ++ shiftParams b.next params)
  earlier : ∀ key ∈ Dictionary.keys b.params,
    Dictionary.find? key c.params = Dictionary.find? key b.params
  gained : ∀ key value, Dictionary.find? key params = some value →
    Dictionary.find? (shiftName b.next key) c.params = some value

theorem isNumbered_empty : IsNumbered {} := by
  intro key hkey
  cases hkey

/-- Numbers from the next one on are free. -/
theorem IsNumbered.fresh {b : Binder} (h : b.IsNumbered) {i : Nat} (hi : b.next ≤ i) :
    name i ∉ Dictionary.keys b.params := by
  intro hmem
  obtain ⟨j, hj, hname⟩ := h _ hmem
  have := name_injective hname
  omega

/-- Values under consecutive names are shifted by starting from a later number. -/
theorem shiftParams_numbered (n m : Nat) (values : List Value) :
    shiftParams n (numbered m values) = numbered (m + n) values := by
  induction values generalizing m with
  | nil => rfl
  | cons value rest ih =>
    have hnext : m + 1 + n = m + n + 1 := by omega
    rw [numbered_cons, shiftParams, List.map_cons, ← shiftParams, ih, numbered_cons, shiftName_name,
      hnext]

/-- A name that none of the new values takes keeps what it is bound to. -/
theorem find?_bindAll_of_ne {b : Binder} {key : String} {values : List Value}
    (h : ∀ i < values.length, name (b.next + i) ≠ key) :
    Dictionary.find? key (b.bindAll values).params = Dictionary.find? key b.params := by
  induction values using List.reverseRecOn with
  | nil => rfl
  | append_singleton rest value ih =>
    rw [List.length_append, List.length_singleton] at h
    rw [find?_bindAll_concat, if_neg (h rest.length (by omega))]
    exact ih fun i hi => h i (by omega)

/-- What values bound from number zero on look like. -/
theorem params_bindAll_empty (values : List Value) :
    (bindAll {} values).params.Perm (numbered 0 values) :=
  params_bindAll_perm {} values fun _ hi => isNumbered_empty.fresh hi

/-- Values that are bound alone have the numbers from zero on. -/
theorem mem_keys_bindAll_empty {key : String} {values : List Value} :
    key ∈ Dictionary.keys (bindAll {} values).params ↔ ∃ i < values.length, name i = key := by
  rw [Dictionary.keys, ((params_bindAll_empty values).map Prod.fst).mem_iff, ← Dictionary.keys,
    keys_numbered, ← List.range_eq_range', List.mem_map]
  simp only [List.mem_range]

/-- Binding values gains the parameters that they make by themselves, each under a later number.
Nothing that was bound before is lost, for its name has an earlier number. -/
theorem IsNumbered.gains {b : Binder} (h : b.IsNumbered) (values : List Value) :
    b.Gains (bindAll {} values).params (b.bindAll values) where
  next := by
    have hlength := (params_bindAll_empty values).length_eq
    rw [numbered, List.length_map, List.length_zipIdx] at hlength
    rw [next_bindAll, hlength]
  -- bound alone, the values are numbered from zero; bound here, from the next number
  entries := by
    have hshifted :
        (shiftParams b.next (bindAll {} values).params).Perm (numbered b.next values) := by
      have hperm := (params_bindAll_empty values).map fun entry =>
        (shiftName b.next entry.1, entry.2)
      rwa [← shiftParams, ← shiftParams, shiftParams_numbered, Nat.zero_add] at hperm
    refine (params_bindAll_perm b values fun _ hi => h.fresh hi).trans ?_
    exact hshifted.symm.append_left b.params
  earlier key hkey := by
    apply find?_bindAll_of_ne
    rintro i - rfl
    exact h.fresh (Nat.le_add_right ..) hkey
  gained key value hfound := by
    have hkey : key ∈ Dictionary.keys (bindAll {} values).params :=
      Dictionary.find?_isSome_iff.1 (by rw [hfound]; rfl)
    obtain ⟨i, hi, rfl⟩ := mem_keys_bindAll_empty.1 hkey
    have halone := find?_bindAll {} values hi
    rw [Nat.zero_add, hfound] at halone
    rw [shiftName_name, Nat.add_comm, find?_bindAll b values hi, halone]

/-- Bound values are numbered again. -/
theorem IsNumbered.bindAll {b : Binder} (h : b.IsNumbered) (values : List Value) :
    (b.bindAll values).IsNumbered := by
  intro key hkey
  rw [next_bindAll]
  rw [(keys_bindAll_perm b values fun _ hi => h.fresh hi).mem_iff, List.mem_append,
    List.mem_map] at hkey
  rcases hkey with hkey | ⟨i, hi, rfl⟩
  · obtain ⟨i, hi, rfl⟩ := h key hkey
    exact ⟨i, by omega, rfl⟩
  · rw [List.mem_range'_1] at hi
    exact ⟨i, hi.2, rfl⟩

end Binder

-- ---------------------------------------------------------------------------
-- Nested selections
-- ---------------------------------------------------------------------------

namespace Selection

/-- A selection without a colon in its names, rendered with a numbered binder, has the text of its
standalone statement with every placeholder shifted by the next number. The binder gains the
standalone parameters, and is numbered again. -/
theorem render_eq_shift {s : Selection} {b : Binder} (hnames : WithoutColon s.names)
    (hb : b.IsNumbered) :
    (s.render b).1 = shiftText b.next s.toStatement.text ∧
      b.Gains s.toStatement.params (s.render b).2 ∧ (s.render b).2.IsNumbered := by
  have halone : s.toStatement = ⟨s.draft.spell 0, (Binder.bindAll {} s.literals).params⟩ := by
    rw [toStatement, render_eq_draft]
  rw [halone, render_eq_draft]
  exact ⟨(Draft.shiftText_spell (scans_draft hnames) b.next).symm, hb.gains s.literals,
    hb.bindAll s.literals⟩

/-- The people of an age, or without a friend whose name looks like a placeholder. -/
def lonelySelection : Selection :=
  ofClass "Person" (some (.any [
    .leaf ⟨"age", .atLeast, .literal (.int 30), false⟩,
    .leaf ⟨"friends", .containsAny, .selection (ofClass "Person"
      (some (.leaf ⟨"name", .equal, .literal (.string ":param0"), false⟩)) true), true⟩])) false

/-- A binder whose next number is nine, with one value bound. -/
def ninthBinder : Binder := (Binder.startingAt 8).bindAll [.string "Ann"]

/-- Rendered behind nine numbers, the two placeholders become the ninth and the tenth, and the
literal that looks like a placeholder stays as it is. -/
theorem render_eq_shift_lonely :
    WithoutColon lonelySelection.names ∧ ninthBinder.IsNumbered ∧
      lonelySelection.toStatement.text = "SELECT * FROM Person WHERE ((age >= :param0 OR NOT (" ++
        "friends CONTAINSANY (SELECT * FROM Person WHERE name = :param1))) AND deletedAt IS NULL)" ∧
      (lonelySelection.render ninthBinder).1 = shiftText 9 lonelySelection.toStatement.text ∧
      ninthBinder.Gains [("param0", .int 30), ("param1", .string ":param0")]
        ⟨11, [("param10", .string ":param0"), ("param8", .string "Ann"), ("param9", .int 30)]⟩ := by
  have hnames : WithoutColon lonelySelection.names := by
    unfold WithoutColon
    decide
  have hnumbered : ninthBinder.IsNumbered := by
    intro key hkey
    obtain rfl : key = "param8" := List.mem_singleton.1 hkey
    exact ⟨8, by decide, rfl⟩
  obtain ⟨htext, hgains, -⟩ := render_eq_shift hnames hnumbered
  exact ⟨hnames, hnumbered, rfl, htext, hgains⟩

end Selection

end RecordQuery
