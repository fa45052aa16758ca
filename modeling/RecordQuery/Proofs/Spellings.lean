import RecordQuery.Proofs.Ids

/-!
# The spellings of an id

An id has one text and many spellings: blanks may stand around it and zeros in front of its numbers.
This module says which texts are read as an id in either form, with no reference to how they are
read.

* `RecordId.IsSpelling` — a text spells the numbers of an id.
* `RecordId.parse?_eq_some_iff` — a text is read as an id if and only if it spells its numbers.
* `RecordId.parse?_inverts_text` — this and what follows from it: ids are read off their texts, a
  persistent id is also a stored one, and the text of an id that is read stands for it.
-/

namespace RecordQuery

-- ---------------------------------------------------------------------------
-- Numbers
-- ---------------------------------------------------------------------------

namespace RecordId.Form

variable {form : Form} {cs : List Char} {n : Int}

/-- What is spelled ends in a digit. -/
theorem Spells.exists_getLast? (h : form.Spells cs n) :
    ∃ c, cs.getLast? = some c ∧ c.isDigit = true := by
  have hlast : ∀ {digits : List Char}, digits ≠ [] → (∀ c ∈ digits, c.isDigit = true) →
      ∃ c, digits.getLast? = some c ∧ c.isDigit = true := fun {digits} hne hdigits =>
    ⟨digits.getLast hne, List.getLast?_eq_some_getLast hne, hdigits _ (List.getLast_mem hne)⟩
  cases h with
  | numeral _ hne hdigits => exact hlast hne hdigits
  | @negative digits hne hdigits =>
    obtain ⟨c, hc, hdigit⟩ := hlast hne hdigits
    exact ⟨c, by rw [List.getLast?_cons, hc]; rfl, hdigit⟩

/-- The stored form allows whatever a form allows. -/
theorem Spells.stored (h : form.Spells cs n) : Form.stored.Spells cs n := by
  cases h with
  | numeral _ hne hdigits => exact .numeral _ hne hdigits
  | negative hne hdigits => exact .negative hne hdigits

theorem Spells.nonneg (h : Form.persistent.Spells cs n) : 0 ≤ n := by
  cases h with
  | numeral _ _ _ => exact Int.natCast_nonneg _

/-- A number is spelled by its text, in the persistent form if it is not negative. -/
theorem spells_toString (hform : form = .persistent → 0 ≤ n) :
    form.Spells (toString n).toList n := by
  rw [← number?_eq_some]
  cases n with
  | ofNat m => exact form.number?_of_natural? (Text.natural?_toString m)
  | negSucc m =>
    cases form with
    | persistent => exact absurd (hform rfl) (by omega)
    | stored =>
      rw [Text.toList_toString_negSucc, number?, Text.integer?, Text.natural?_toString]
      rfl

end RecordId.Form

-- ---------------------------------------------------------------------------
-- Ids
-- ---------------------------------------------------------------------------

namespace RecordId

/-- A text is blanks, a hash sign, the spelling of a cluster, a colon, the spelling of a position and
blanks again. -/
def IsSpelling (form : Form) (text : String) (cluster position : Int) : Prop :=
  ∃ front left right back, text.toList = front ++ ('#' :: (left ++ ':' :: right) ++ back) ∧
    (∀ c ∈ front, Text.isBlank c = true) ∧ (∀ c ∈ back, Text.isBlank c = true) ∧
      form.Spells left cluster ∧ form.Spells right position

/-- A cluster is a signed word of 32 bits and a position one of 64 bits. -/
def IsInRange (cluster position : Int) : Prop :=
  (Int32.minValue.toInt ≤ cluster ∧ cluster ≤ Int32.maxValue.toInt) ∧
    Int64.minValue.toInt ≤ position ∧ position ≤ Int64.maxValue.toInt

variable {form : Form} {text : String} {id : RecordId}

/-- What spells an id in one form spells it in the stored form. -/
theorem IsSpelling.stored {cluster position : Int} (h : IsSpelling form text cluster position) :
    IsSpelling .stored text cluster position := by
  obtain ⟨front, left, right, back, htext, hfront, hback, hleft, hright⟩ := h
  exact ⟨front, left, right, back, htext, hfront, hback, hleft.stored, hright.stored⟩

/-- The numbers of a persistent id are not negative. -/
theorem IsSpelling.nonneg {cluster position : Int}
    (h : IsSpelling .persistent text cluster position) : 0 ≤ cluster ∧ 0 ≤ position := by
  obtain ⟨_, _, _, _, _, _, _, hleft, hright⟩ := h
  exact ⟨hleft.nonneg, hright.nonneg⟩

/-- What is spelled has no blank at its ends. -/
theorem trimChars_spelling {front left right back : List Char} {position : Int}
    (hfront : ∀ c ∈ front, Text.isBlank c = true) (hback : ∀ c ∈ back, Text.isBlank c = true)
    (hright : form.Spells right position) :
    Text.trimChars (front ++ ('#' :: (left ++ ':' :: right) ++ back)) =
      '#' :: (left ++ ':' :: right) := by
  -- the first character is the hash, the last one a digit of the position: neither is blank
  refine Text.trimChars_append hfront hback (List.cons_ne_nil _ _) ?_ ?_
  · intro c hc
    cases hc
    decide
  · intro c hc
    obtain ⟨last, hlast, hdigit⟩ := hright.exists_getLast?
    have hend : ('#' :: (left ++ ':' :: right)).getLast? = some last := by
      simp [List.getLast?_cons, hlast]
    rw [hend] at hc
    cases hc
    exact Text.isBlank_of_isDigit hdigit

/-- A text is read as an id if and only if it spells the numbers of the id. -/
theorem parse?_eq_some_iff :
    parse? form text = some id ↔ IsSpelling form text id.cluster.toInt id.position.toInt := by
  rw [parse?_eq_some]
  simp only [Form.number?_eq_some]
  constructor
  · rintro ⟨left, right, htrim, hleft, hright⟩
    obtain ⟨front, back, htext, hfront, hback⟩ := Text.exists_trimChars_eq text.toList
    rw [htrim] at htext
    exact ⟨front, left, right, back, htext, hfront, hback, hleft, hright⟩
  · rintro ⟨front, left, right, back, htext, hfront, hback, hleft, hright⟩
    refine ⟨left, right, ?_, hleft, hright⟩
    rw [htext, trimChars_spelling hfront hback hright]

/-- The numbers that a text spells are those of an id if they are in range: reading fails for
nothing else. -/
theorem isSome_parse?_iff :
    (parse? form text).isSome ↔
      ∃ cluster position, IsSpelling form text cluster position ∧ IsInRange cluster position := by
  constructor
  · intro h
    obtain ⟨id, hid⟩ := Option.isSome_iff_exists.1 h
    exact ⟨_, _, parse?_eq_some_iff.1 hid,
      ⟨id.cluster.minValue_le_toInt, id.cluster.toInt_le⟩,
      id.position.minValue_le_toInt, id.position.toInt_le⟩
  · rintro ⟨cluster, position, hspelling, hcluster, hposition⟩
    -- numbers in range are kept by the words of an id
    have hc : cluster? cluster = some (.ofInt cluster) := if_pos hcluster
    have hp : position? position = some (.ofInt position) := if_pos hposition
    rw [← cluster?_eq_some.1 hc, ← position?_eq_some.1 hp] at hspelling
    have hread : parse? form text = some ⟨.ofInt cluster, .ofInt position⟩ :=
      parse?_eq_some_iff.2 hspelling
    exact Option.isSome_of_eq_some hread

/-- The text of an id spells its numbers, in the persistent form if none is negative. -/
theorem isSpelling_text (id : RecordId)
    (hform : form = .persistent → 0 ≤ id.cluster.toInt ∧ 0 ≤ id.position.toInt) :
    IsSpelling form id.text id.cluster.toInt id.position.toInt := by
  refine ⟨[], (toString id.cluster.toInt).toList, (toString id.position.toInt).toList, [], ?_,
    nofun, nofun, Form.spells_toString fun h => (hform h).1,
    Form.spells_toString fun h => (hform h).2⟩
  simp [RecordId.text]

/-- A persistent id is read as a stored one, too. -/
theorem parse?_stored_of_persistent (h : parse? .persistent text = some id) :
    parse? .stored text = some id :=
  parse?_eq_some_iff.2 (parse?_eq_some_iff.1 h).stored

/-- Every id is read off its text as a stored one. -/
theorem parse?_stored_text (id : RecordId) : parse? .stored id.text = some id :=
  parse?_eq_some_iff.2 (id.isSpelling_text nofun)

/-- As a persistent id the text of an id is read only if it has no sign in it. -/
theorem parse?_persistent_text (id : RecordId) :
    parse? .persistent id.text =
      if 0 ≤ id.cluster.toInt ∧ 0 ≤ id.position.toInt then some id else none := by
  split
  · next hsigns => exact parse?_eq_some_iff.2 (id.isSpelling_text fun _ => hsigns)
  · next hsigns =>
    rw [Option.eq_none_iff_forall_ne_some]
    intro other hother
    obtain rfl : id = other := by
      rw [← Option.some_inj, ← parse?_stored_text id, parse?_stored_of_persistent hother]
    exact hsigns (parse?_eq_some_iff.1 hother).nonneg

/-- Whatever text an id was read from, it is read from its own text in the same form. -/
theorem parse?_text_of_parse? (h : parse? form text = some id) :
    parse? form id.text = some id := by
  refine parse?_eq_some_iff.2 (id.isSpelling_text ?_)
  rintro rfl
  exact (parse?_eq_some_iff.1 h).nonneg

/-- Every id is read off its text as a stored id, and as a persistent one exactly if no part of it is
negative. A text is read in a form if and only if it spells numbers in range in that form, and as the
id of these numbers. What is read as a persistent id is the same as a stored id, and the text of an
id that is read is read as that id again. -/
theorem parse?_inverts_text :
    (∀ id : RecordId, parse? .stored id.text = some id ∧ parse? .persistent id.text =
      if 0 ≤ id.cluster.toInt ∧ 0 ≤ id.position.toInt then some id else none) ∧
    (∀ form text, (parse? form text).isSome ↔
      ∃ cluster position, IsSpelling form text cluster position ∧ IsInRange cluster position) ∧
    (∀ form text id, parse? form text = some id ↔
      IsSpelling form text id.cluster.toInt id.position.toInt) ∧
    (∀ text id, parse? .persistent text = some id → parse? .stored text = some id) ∧
    ∀ form text id, parse? form text = some id → parse? form id.text = some id :=
  ⟨fun id => ⟨parse?_stored_text id, parse?_persistent_text id⟩, fun _ _ => isSome_parse?_iff,
    fun _ _ _ => parse?_eq_some_iff, fun _ _ => parse?_stored_of_persistent,
    fun _ _ _ => parse?_text_of_parse?⟩

/-- An id with zeros in front of its numbers and blanks around it, and one with a sign in front of a
zero, at the least cluster. One more below is out of range. -/
theorem parse?_inverts_text_padded :
    let padded : RecordId := ⟨12, 7⟩
    let least : RecordId := ⟨.minValue, 0⟩
    (parse? .persistent "\t#0012:07\u2003" = some padded ∧
      parse? .stored "\t#0012:07\u2003" = some padded ∧
        parse? .persistent padded.text = some padded) ∧
    (parse? .stored "#-2147483648:-0" = some least ∧ parse? .stored least.text = some least ∧
      parse? .persistent least.text = none) ∧
    IsSpelling .stored "#-2147483649:0" (-2147483649) 0 ∧ parse? .stored "#-2147483649:0" = none := by
  intro padded least
  obtain ⟨htext, -, -, hstored, hagain⟩ := parse?_inverts_text
  have hpadded : parse? .persistent "\t#0012:07\u2003" = some padded := by decide
  have hleast : parse? .stored "#-2147483648:-0" = some least := by decide
  refine ⟨⟨hpadded, hstored _ _ hpadded, hagain _ _ _ hpadded⟩,
    ⟨hleast, hagain _ _ _ hleast, (htext least).2.trans (by decide)⟩, ?_, by decide⟩
  exact ⟨[], "-2147483649".toList, "0".toList, [], by decide, nofun, nofun,
    Form.number?_eq_some.1 (by decide), Form.number?_eq_some.1 (by decide)⟩

end RecordId

end RecordQuery
