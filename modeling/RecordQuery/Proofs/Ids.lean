import Mathlib.Data.List.Forall2
import RecordQuery.Selection.OfRequest

/-!
# Ids as they are written and as they are read

A request names a record by a text. Blanks around it and zeros in front of its numbers do not count,
and nothing else is forgiven: the id that is read has a text of its own, which no character of the
request reaches.

* `RecordId.Writes` — a text writes two numbers.
* `RecordId.parse?_eq_some` — the texts that are read in either form, and as which ids.
* `RecordId.parse?_persistent_eq_some` — the texts that are read as ids of a request.
* `Request.readIds_eq_ok` — a list of texts is read one by one.
-/

namespace RecordQuery

/-- The first separator is the cut: nothing before it is one. -/
theorem Text.cut_append {sep : Char} {before : List Char} (h : sep ∉ before) (after : List Char) :
    Text.cut sep (before ++ sep :: after) = some (before, after) := by
  induction before with
  | nil => simp [cut]
  | cons c rest ih =>
    rw [List.mem_cons, not_or] at h
    have hne : c ≠ sep := fun heq => h.1 heq.symm
    rw [List.cons_append, cut, if_neg hne, ih h.2, Option.map_some]

/-- A character that is no digit stands in no text that reads as a natural number. -/
theorem Text.not_mem_of_natural? {cs : List Char} {n : Nat} {c : Char} (hc : c.isDigit = false)
    (h : natural? cs = some n) : c ∉ cs := by
  intro hmem
  rw [(natural?_eq_some.1 h).2.1 c hmem] at hc
  cases hc

namespace RecordId

/-- Apart from blanks around it, a text is a hash sign, a numeral, a colon and a numeral. -/
def Writes (text : String) (cluster position : Nat) : Prop :=
  ∃ left right, Text.trimChars text.toList = '#' :: (left ++ ':' :: right) ∧
    Text.natural? left = some cluster ∧ Text.natural? right = some position

/-- The id of two numbers. -/
def ofNats (cluster position : Nat) : RecordId := ⟨.ofInt cluster, .ofInt position⟩

/-- How a number may be spelled: by one or more digits, and in the stored form also by a minus sign
in front of them. Zeros in front change nothing. -/
inductive Form.Spells : Form → List Char → Int → Prop
  | numeral (form : Form) {digits : List Char} : digits ≠ [] → (∀ c ∈ digits, c.isDigit = true) →
      Spells form digits (Nat.ofDigitChars 10 digits 0 : Nat)
  | negative {digits : List Char} : digits ≠ [] → (∀ c ∈ digits, c.isDigit = true) →
      Spells .stored ('-' :: digits) (-(Nat.ofDigitChars 10 digits 0 : Nat))

/-- A persistent id is written with bare numerals only. -/
theorem Form.number?_persistent (digits : List Char) :
    Form.persistent.number? digits = (Text.natural? digits).map fun n => Int.ofNat n := by
  rw [Form.number?]
  cases Text.natural? digits <;> rfl

/-- A bare numeral is a number in either form. -/
theorem Form.number?_of_natural? (form : Form) {digits : List Char} {n : Nat}
    (h : Text.natural? digits = some n) : form.number? digits = some (n : Int) := by
  cases form with
  | persistent => rw [Form.number?, h]; rfl
  | stored =>
    rw [Form.number?]
    unfold Text.integer?
    split
    · exact absurd (List.mem_cons_self ..) (Text.not_mem_of_natural? (by decide) h)
    · rw [h]; rfl

/-- The numbers that are read are those that are spelled: in the stored form a sign may stand in
front of the digits, in the persistent one digits only. -/
theorem Form.number?_eq_some {form : Form} {cs : List Char} {n : Int} :
    form.number? cs = some n ↔ form.Spells cs n := by
  constructor
  · intro h
    have hnumeral : ∀ {digits : List Char} {m : Nat}, Text.natural? digits = some m →
        form.Spells digits m := by
      intro digits m hm
      obtain ⟨hne, hdigits, rfl⟩ := Text.natural?_eq_some.1 hm
      exact .numeral form hne hdigits
    cases form with
    | persistent =>
      rw [number?_persistent] at h
      obtain ⟨m, hm, rfl⟩ := Option.map_eq_some_iff.1 h
      exact hnumeral hm
    -- the sign is read in the stored form only, and what follows it is a numeral again
    | stored =>
      rw [Form.number?] at h
      unfold Text.integer? at h
      split at h
      · next digits =>
        cases hm : Text.natural? digits with
        | none => rw [hm] at h; cases h
        | some m =>
          rw [hm] at h
          cases h
          obtain ⟨hne, hdigits, rfl⟩ := Text.natural?_eq_some.1 hm
          exact .negative hne hdigits
      · cases hm : Text.natural? cs with
        | none => rw [hm] at h; cases h
        | some m =>
          rw [hm] at h
          cases h
          exact hnumeral hm
  · intro h
    cases h with
    | numeral _ hne hdigits =>
      exact form.number?_of_natural? (Text.natural?_eq_some.2 ⟨hne, hdigits, rfl⟩)
    | negative hne hdigits =>
      rw [Form.number?, Text.integer?, Text.natural?_eq_some.2 ⟨hne, hdigits, rfl⟩]
      rfl

/-- What spells a number holds digits and minus signs only. -/
theorem Form.Spells.not_mem {form : Form} {cs : List Char} {n : Int} {c : Char}
    (h : form.Spells cs n) (hdigit : c.isDigit = false) (hsign : c ≠ '-') : c ∉ cs := by
  have hdigits : ∀ {digits : List Char}, (∀ d ∈ digits, d.isDigit = true) → c ∉ digits := by
    intro digits hdigits hmem
    rw [hdigits c hmem] at hdigit
    cases hdigit
  cases h with
  | numeral _ _ hall => exact hdigits hall
  | negative _ hall => exact List.not_mem_cons_of_ne_of_not_mem hsign (hdigits hall)

/-- A number is a cluster exactly when it is the value of some 32-bit integer, and of that one. -/
theorem cluster?_eq_some {n : Int} {cluster : Int32} :
    cluster? n = some cluster ↔ cluster.toInt = n := by
  rw [cluster?, Option.ite_none_right_eq_some, Option.some_inj]
  constructor
  · rintro ⟨⟨hmin, hmax⟩, rfl⟩
    have hmin₃₂ : Int32.minValue.toInt = -2147483648 := by decide
    have hmax₃₂ : Int32.maxValue.toInt = 2147483647 := by decide
    exact Int32.toInt_ofInt_of_le (by omega) (by omega)
  · rintro rfl
    exact ⟨⟨cluster.minValue_le_toInt, cluster.toInt_le⟩, cluster.ofInt_toInt⟩

/-- A number is a position exactly when it is the value of some 64-bit integer, and of that one. -/
theorem position?_eq_some {n : Int} {position : Int64} :
    position? n = some position ↔ position.toInt = n := by
  rw [position?, Option.ite_none_right_eq_some, Option.some_inj]
  constructor
  · rintro ⟨⟨hmin, hmax⟩, rfl⟩
    have hmin₆₄ : Int64.minValue.toInt = -9223372036854775808 := by decide
    have hmax₆₄ : Int64.maxValue.toInt = 9223372036854775807 := by decide
    exact Int64.toInt_ofInt_of_le (by omega) (by omega)
  · rintro rfl
    exact ⟨⟨position.minValue_le_toInt, position.toInt_le⟩, position.ofInt_toInt⟩

/-- Two numbers in range are the numbers of their id. -/
theorem toInt_ofNats {cluster position : Nat} (hcluster : (cluster : Int) ≤ Int32.maxValue.toInt)
    (hposition : (position : Int) ≤ Int64.maxValue.toInt) :
    (ofNats cluster position).cluster.toInt = cluster ∧
      (ofNats cluster position).position.toInt = position := by
  have hmax₃₂ : Int32.maxValue.toInt = 2147483647 := by decide
  have hmax₆₄ : Int64.maxValue.toInt = 9223372036854775807 := by decide
  exact ⟨Int32.toInt_ofInt_of_le (by omega) (by omega),
    Int64.toInt_ofInt_of_le (by omega) (by omega)⟩

/-- The text of an id has the numbers in plain decimal form. -/
theorem text_ofNats {cluster position : Nat} (hcluster : (cluster : Int) ≤ Int32.maxValue.toInt)
    (hposition : (position : Int) ≤ Int64.maxValue.toInt) :
    (ofNats cluster position).text = "#" ++ toString cluster ++ ":" ++ toString position := by
  obtain ⟨hc, hp⟩ := toInt_ofNats hcluster hposition
  rw [text, hc, hp]
  rfl

/-- A text is read if, apart from blanks around it, it is a hash sign, the number of a cluster, a
colon and the number of a position. -/
theorem parse?_eq_some {form : Form} {text : String} {id : RecordId} :
    parse? form text = some id ↔ ∃ left right,
      Text.trimChars text.toList = '#' :: (left ++ ':' :: right) ∧
        form.number? left = some id.cluster.toInt ∧
          form.number? right = some id.position.toInt := by
  unfold parse?
  constructor
  · intro h
    split at h
    · next body htrim =>
      simp only [Option.bind_eq_bind, Option.bind_eq_some_iff, cluster?_eq_some,
        position?_eq_some] at h
      obtain ⟨⟨left, right⟩, hcut, _, hleft, _, hright, cluster, rfl, position, rfl, hid⟩ := h
      obtain ⟨rfl, -⟩ := Text.cut_eq_some hcut
      obtain rfl := Option.some.inj hid
      exact ⟨left, right, htrim, hleft, hright⟩
    · cases h
  · rintro ⟨left, right, htrim, hleft, hright⟩
    -- the cut is at the first colon, and the number in front of it holds none
    have hcolon := (Form.number?_eq_some.1 hleft).not_mem (c := ':') (by decide) (by decide)
    have hcut := Text.cut_append hcolon right
    have hcluster : cluster? id.cluster.toInt = some id.cluster := cluster?_eq_some.2 rfl
    have hposition : position? id.position.toInt = some id.position := position?_eq_some.2 rfl
    simp only [htrim, hcut, Option.bind_eq_bind, Option.bind_some, hleft, hright, hcluster,
      hposition]
    rfl

/-- A text is read as a persistent id if it writes two numbers in range, and as their id. Blanks
around it and zeros in front of the numbers make no difference. -/
theorem parse?_persistent_eq_some {text : String} {id : RecordId} :
    parse? .persistent text = some id ↔ ∃ cluster position, Writes text cluster position ∧
      (cluster : Int) ≤ Int32.maxValue.toInt ∧ (position : Int) ≤ Int64.maxValue.toInt ∧
        ofNats cluster position = id := by
  simp only [parse?_eq_some, Form.number?_persistent, Option.map_eq_some_iff]
  constructor
  · rintro ⟨left, right, htrim, ⟨cluster, hleft, hc⟩, position, hright, hp⟩
    rw [Int.ofNat_eq_natCast] at hc hp
    refine ⟨cluster, position, ⟨left, right, htrim, hleft, hright⟩, ?_, ?_, ?_⟩
    · exact hc ▸ id.cluster.toInt_le
    · exact hp ▸ id.position.toInt_le
    · rw [ofNats, hc, hp, Int32.ofInt_toInt, Int64.ofInt_toInt]
  · rintro ⟨cluster, position, ⟨left, right, htrim, hleft, hright⟩, hcluster, hposition, rfl⟩
    obtain ⟨hc, hp⟩ := toInt_ofNats hcluster hposition
    exact ⟨left, right, htrim, ⟨cluster, hleft, hc.symm⟩, position, hright, hp.symm⟩

example : parse? .persistent "\t#012:7 " = some (ofNats 12 7) := by decide

example : parse? .persistent "#12:7] WHERE 1 = 1" = none := by decide

end RecordId

/-- The texts of a request are read one by one. All of them have to be ids, and as many are read as
there are texts. -/
theorem Request.readIds_eq_ok {texts : List String} {ids : List RecordId} :
    readIds texts = .ok ids ↔
      List.Forall₂ (fun text id => RecordId.parse? .persistent text = some id) texts ids := by
  induction texts generalizing ids with
  | nil => simp [readIds, eq_comm]
  | cons text rest ih =>
    rw [readIds, List.forall₂_cons_left_iff]
    -- the first text that is no id ends the reading, whatever stands behind it
    cases RecordId.parse? .persistent text with
    | none => simp [reject]
    | some id =>
      simp only [map_eq_ok, ih, Option.some.injEq]
      constructor
      · rintro ⟨others, hothers, rfl⟩
        exact ⟨id, others, rfl, hothers, rfl⟩
      · rintro ⟨_, others, rfl, hothers, rfl⟩
        exact ⟨others, hothers, rfl⟩

end RecordQuery
