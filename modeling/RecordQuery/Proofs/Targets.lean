import RecordQuery.Proofs.Lowering
import RecordQuery.Proofs.Spellings

/-!
# The target of a query and what its statement reads

A query for explicit records says twice where it reads from: its target repeats the texts of the
request, and its statement has the texts of the ids that were read from them. The two are the same
list of ids. They are the same text if and only if the request spells every id as its own text, with
no blanks around it and no zeros in front of its numbers.

* `Text.isReduced_iff` — the numerals without zeros in front are the texts of numbers.
* `RecordId.text_eq_self_iff` — a text that is read as an id is the text of that id if and only if
  it has no blanks and no zeros in front.
* `Query.reads_target_iff` — when the statement reads from the target.
-/

namespace RecordQuery

-- ---------------------------------------------------------------------------
-- Numerals
-- ---------------------------------------------------------------------------

namespace Text

/-- A numeral with no zero in front of it, unless it is a zero. -/
def IsReduced (cs : List Char) : Prop :=
  isNumeral cs = true ∧ (cs.head? = some '0' → cs = ['0'])

instance (cs : List Char) : Decidable (IsReduced cs) := inferInstanceAs (Decidable (_ ∧ _))

/-- A digit is the text of the number that it stands for. -/
theorem toDigits_digit {c : Char} (h : c.isDigit = true) :
    c.toNat - '0'.toNat < 10 ∧ Nat.toDigits 10 (c.toNat - '0'.toNat) = [c] := by
  have hrange : 48 ≤ c.toNat ∧ c.toNat ≤ 57 := by
    simpa [Char.isDigit, UInt32.le_iff_toNat_le] using h
  have hlt : c.toNat - '0'.toNat < 10 := by
    show c.toNat - 48 < 10
    omega
  refine ⟨hlt, ?_⟩
  rw [Nat.toDigits_of_lt_base hlt, List.cons.injEq, and_iff_left rfl, ← Char.toNat_inj,
    Nat.toNat_digitChar_of_lt_ten hlt]
  show 48 + (c.toNat - 48) = c.toNat
  omega

/-- Digits behind the text of a number other than zero make the text of a number. -/
theorem toDigits_append_digits {cs : List Char} (h : ∀ c ∈ cs, c.isDigit = true) {n : Nat}
    (hn : 0 < n) : Nat.toDigits 10 n ++ cs = Nat.toDigits 10 (Nat.ofDigitChars 10 cs n) := by
  induction cs generalizing n with
  | nil => rw [List.append_nil, Nat.ofDigitChars_nil]
  | cons c rest ih =>
    obtain ⟨hc, hrest⟩ := List.forall_mem_cons.1 h
    obtain ⟨hlt, hdigit⟩ := toDigits_digit hc
    rw [Nat.ofDigitChars_cons, ← ih hrest (by omega),
      ← Nat.toDigits_append_toDigits (by decide) hn hlt, hdigit, List.append_assoc]
    rfl

/-- Digits without a zero in front are the text of the number that they stand for. This is what
reading and writing again keeps. -/
theorem toDigits_ofDigitChars {cs : List Char} (h : IsReduced cs) :
    Nat.toDigits 10 (Nat.ofDigitChars 10 cs 0) = cs := by
  obtain ⟨hnumeral, hzero⟩ := h
  cases cs with
  | nil => cases hnumeral
  | cons c rest =>
    obtain ⟨hc, hrest⟩ : c.isDigit = true ∧ ∀ d ∈ rest, d.isDigit = true := by
      simpa [isNumeral] using hnumeral
    by_cases hfirst : c = '0'
    · rw [hzero (congrArg some hfirst)]
      rfl
    · obtain ⟨-, hdigit⟩ := toDigits_digit hc
      -- the first digit counts, so the digits that are written start with it
      have hpos : 0 < c.toNat - '0'.toNat := by
        rw [Nat.pos_iff_ne_zero]
        intro hnumber
        rw [hnumber, Nat.toDigits_zero] at hdigit
        exact hfirst (List.head_eq_of_cons_eq hdigit).symm
      rw [Nat.ofDigitChars_cons, Nat.mul_zero, Nat.zero_add, ← toDigits_append_digits hrest hpos,
        hdigit]
      rfl

/-- The text of a number other than zero does not start with a zero. -/
theorem head?_toDigits_ne {n : Nat} (h : 0 < n) : (Nat.toDigits 10 n).head? ≠ some '0' := by
  induction n using Nat.strongRecOn with
  | ind n ih =>
    -- the first digit of a number is that of the number without its last digit
    rw [Nat.toDigits_eq_if (by decide)]
    split
    · next hlt =>
      intro hzero
      have hsame := congrArg Char.toNat (Option.some.inj hzero)
      rw [Nat.toNat_digitChar_of_lt_ten hlt] at hsame
      have hnumber : 48 + n = 48 := hsame
      omega
    · next hge =>
      rw [List.head?_append_of_ne_nil _ Nat.toDigits_ne_nil]
      exact ih (n / 10) (by omega) (by omega)

/-- A number is written without zeros in front. -/
theorem isReduced_toDigits (n : Nat) : IsReduced (Nat.toDigits 10 n) := by
  refine ⟨isNumeral_toDigits n, fun hzero => ?_⟩
  rcases Nat.eq_zero_or_pos n with rfl | hpos
  · exact Nat.toDigits_zero 10
  · exact absurd hzero (head?_toDigits_ne hpos)

/-- The numerals without zeros in front are the texts of the numbers. -/
theorem isReduced_iff {cs : List Char} : IsReduced cs ↔ ∃ n, cs = Nat.toDigits 10 n := by
  constructor
  · exact fun h => ⟨_, (toDigits_ofDigitChars h).symm⟩
  · rintro ⟨n, rfl⟩
    exact isReduced_toDigits n

/-- Texts without a comma can be told apart when they are joined by commas. There have to be as many
of them on both sides, as an empty list is joined like an empty text. -/
theorem intercalate_comma_inj {texts others : List String} (hlength : texts.length = others.length)
    (htexts : ∀ text ∈ texts, ',' ∉ text.toList) (hothers : ∀ text ∈ others, ',' ∉ text.toList)
    (h : ", ".intercalate texts = ", ".intercalate others) : texts = others := by
  induction texts generalizing others with
  | nil => exact (List.length_eq_zero_iff.1 hlength.symm).symm
  | cons text rest ih =>
    cases others with
    | nil => cases hlength
    | cons other more =>
      obtain ⟨htext, hrest⟩ := List.forall_mem_cons.1 htexts
      obtain ⟨hother, hmore⟩ := List.forall_mem_cons.1 hothers
      have hlength : rest.length = more.length := Nat.succ.inj hlength
      cases rest with
      | nil =>
        obtain rfl := List.length_eq_zero_iff.1 hlength.symm
        rw [String.intercalate_singleton, String.intercalate_singleton] at h
        rw [h]
      | cons second rest =>
        cases more with
        | nil => cases hlength
        | cons third more =>
          -- both texts are cut at their first comma, and the rests are shorter lists
          have hjoined : text.toList ++ ',' :: (' ' :: (", ".intercalate (second :: rest)).toList) =
              other.toList ++ ',' :: (' ' :: (", ".intercalate (third :: more)).toList) := by
            rw [String.intercalate_cons_cons, String.intercalate_cons_cons] at h
            simpa using congrArg String.toList h
          have hcut := congrArg (cut ',') hjoined
          rw [cut_append htext, cut_append hother] at hcut
          obtain ⟨hfirst, hbehind⟩ := Prod.mk.inj (Option.some.inj hcut)
          have hsame := ih hlength hrest hmore (String.toList_inj.1 (List.cons.inj hbehind).2)
          rw [String.toList_inj.1 hfirst, hsame]

end Text

-- ---------------------------------------------------------------------------
-- Ids
-- ---------------------------------------------------------------------------

namespace RecordId

/-- A text is a hash sign, a numeral, a colon and a numeral, with no blanks around it and no zeros
in front of the numerals. -/
def IsReduced (text : String) : Prop :=
  ∃ left right, text.toList = '#' :: (left ++ ':' :: right) ∧ Text.IsReduced left ∧
    Text.IsReduced right

variable {text : String} {id : RecordId}

/-- The text of an id without signs, character by character. -/
theorem toList_text_of_nat {cluster position : Nat} (hcluster : id.cluster.toInt = cluster)
    (hposition : id.position.toInt = position) :
    id.text.toList = '#' :: (Nat.toDigits 10 cluster ++ ':' :: Nat.toDigits 10 position) := by
  have hnat (n : Nat) : (toString (n : Int)).toList = Nat.toDigits 10 n := by
    show (toString n).toList = _
    rw [Nat.toString_eq_ofList_toDigits, String.toList_ofList]
  rw [RecordId.text, hcluster, hposition]
  simp only [String.toList_append, hnat]
  simp

/-- A text that is read as the id of a request is the text of that id if and only if it has no
blanks around it and no zeros in front of its numbers. -/
theorem text_eq_self_iff (h : parse? .persistent text = some id) :
    id.text = text ↔ IsReduced text := by
  obtain ⟨left, right, htrim, hleft, hright⟩ := parse?_eq_some.1 h
  have hcolon := (Form.number?_eq_some.1 hleft).not_mem (c := ':') (by decide) (by decide)
  rw [Form.number?_persistent, Option.map_eq_some_iff] at hleft hright
  obtain ⟨cluster, hleft, hcluster⟩ := hleft
  obtain ⟨position, hright, hposition⟩ := hright
  have htext := toList_text_of_nat hcluster.symm hposition.symm
  constructor
  · rintro rfl
    exact ⟨_, _, htext, Text.isReduced_toDigits cluster, Text.isReduced_toDigits position⟩
  · rintro ⟨front, back, hspelled, hfront, hback⟩
    obtain ⟨m, rfl⟩ := Text.isReduced_iff.1 hfront
    obtain ⟨n, rfl⟩ := Text.isReduced_iff.1 hback
    have hspells (k : Nat) : Form.persistent.Spells (Nat.toDigits 10 k) k :=
      Form.number?_eq_some.1 (Form.number?_of_natural? _ (Text.natural?_toDigits k))
    -- nothing is trimmed off, so what was read is what is spelled
    have hwhole := @trimChars_spelling .persistent [] (Nat.toDigits 10 m) _ [] n nofun nofun
      (hspells n)
    rw [List.nil_append, List.append_nil, ← hspelled, htrim] at hwhole
    have hcut := congrArg (Text.cut ':') (List.cons.inj (hwhole.trans hspelled)).2
    rw [Text.cut_append hcolon,
      Text.cut_append ((hspells m).not_mem (by decide) (by decide))] at hcut
    obtain ⟨rfl, rfl⟩ := Prod.mk.inj (Option.some.inj hcut)
    obtain rfl := Option.some.inj ((Text.natural?_toDigits m).symm.trans hleft)
    obtain rfl := Option.some.inj ((Text.natural?_toDigits n).symm.trans hright)
    exact String.toList_inj.1 (htext.trans hspelled.symm)

/-- What is read as an id has no comma in it. -/
theorem comma_not_mem (h : parse? .persistent text = some id) : ',' ∉ text.toList := by
  obtain ⟨front, left, right, back, htext, hfront, hback, hleft, hright⟩ := parse?_eq_some_iff.1 h
  have hleft := hleft.not_mem (c := ',') (by decide) (by decide)
  have hright := hright.not_mem (c := ',') (by decide) (by decide)
  have hblanks : ∀ {cs : List Char}, (∀ c ∈ cs, Text.isBlank c = true) → ',' ∉ cs :=
    fun hcs hmem => absurd (hcs ',' hmem) (by decide)
  rw [htext]
  simp [hblanks hfront, hblanks hback, hleft, hright]

variable {texts : List String} {ids : List RecordId}

/-- A list of texts is written back unchanged if each of the texts is. -/
theorem map_text_eq_iff
    (h : List.Forall₂ (fun text id => parse? .persistent text = some id) texts ids) :
    ids.map RecordId.text = texts ↔ ∀ text ∈ texts, IsReduced text := by
  induction h with
  | nil => simp
  | cons hread _ ih =>
    rw [List.map_cons, List.cons.injEq, text_eq_self_iff hread, ih, List.forall_mem_cons]

/-- Joined by commas, texts that are read as ids are the texts of these if each of them is, for no
text that is read as an id has a comma. -/
theorem intercalate_text_eq_iff
    (h : List.Forall₂ (fun text id => parse? .persistent text = some id) texts ids) :
    ", ".intercalate (ids.map RecordId.text) = ", ".intercalate texts ↔
      ids.map RecordId.text = texts := by
  refine ⟨fun hjoined => ?_, fun hsame => by rw [hsame]⟩
  refine Text.intercalate_comma_inj ?_ ?_ ?_ hjoined
  · rw [List.length_map, h.length_eq]
  · intro written hmem
    obtain ⟨id, hid, rfl⟩ := List.mem_map.1 hmem
    obtain ⟨_, _, hread⟩ := exists_of_forall₂_of_mem h hid
    exact comma_not_mem (parse?_text_of_parse? hread)
  · intro text hmem
    obtain ⟨_, _, hread⟩ := exists_of_forall₂_of_mem h.flip hmem
    exact comma_not_mem hread

end RecordId

-- ---------------------------------------------------------------------------
-- Queries
-- ---------------------------------------------------------------------------

namespace Query

variable {schema : Schema} {limits : Limits}

/-- A query for explicit records. Its target lists the texts of the request, and its statement reads
from the ids that these are read as. The statement reads from the target, letter by letter, if and
only if the request has no blanks around its ids and no zeros in front of their numbers. -/
theorem reads_target_iff {r : Request} {q : Query} {texts : List String}
    (htarget : r.target = .records texts) (h : ofRequest schema limits r = .ok q) :
    q.target = "[" ++ ", ".intercalate texts ++ "]" ∧
      (∃ ids : List RecordId,
        List.Forall₂ (fun text id => RecordId.parse? .persistent text = some id) texts ids ∧
          q.selection.toStatement.text =
            "SELECT * FROM [" ++ ", ".intercalate (ids.map RecordId.text) ++ "]") ∧
      (q.selection.toStatement.text = "SELECT * FROM " ++ q.target ↔
        ∀ text ∈ texts, RecordId.IsReduced text) := by
  obtain ⟨-, selection, hselection, target, _, hread, -, _, -, rfl⟩ := ofRequest_eq_ok.1 h
  obtain ⟨-, -, -, ids, hids, rfl⟩ :=
    (Selection.ofRequest_records_eq_ok (r := r.inner) htarget).1 hselection
  rw [Request.readIds_eq_ok] at hids
  -- the ids of the request are read; the statement is written from these, the target from the texts
  have htext : (Selection.ofRecords ids r.inner.history).toStatement.text =
      "SELECT * FROM [" ++ ", ".intercalate (ids.map RecordId.text) ++ "]" := by
    rw [Selection.toStatement_ofRecords]
  have hnames : target = "[" ++ ", ".intercalate texts ++ "]" := by
    rw [htarget, readTarget] at hread
    exact (Prod.mk.inj (Except.ok.inj hread)).1.symm
  refine ⟨hnames, ⟨ids, hids, htext⟩, ?_⟩
  show (Selection.ofRecords ids r.inner.history).toStatement.text = _ ++ target ↔ _
  -- both lists stand between the same brackets, so the texts agree if and only if their items do
  rw [htext, hnames, ← RecordId.map_text_eq_iff hids, ← RecordId.intercalate_text_eq_iff hids,
    ← String.append_assoc, ← String.append_assoc, String.append_left_inj]
  show "SELECT * FROM " ++ "[" ++ _ = _ ↔ _
  rw [String.append_right_inj]

/-- Two ids with plain numbers, one of which is zero. -/
theorem reads_target_iff_plain :
    let texts := ["#12:0", "#7:10"]
    ∃ q, ofRequest {} {} (Request.ofRecords texts) = .ok q ∧
      q.selection.toStatement.text = "SELECT * FROM " ++ q.target ∧ q.target = "[#12:0, #7:10]" := by
  intro texts
  have hreduced : ∀ text ∈ texts, RecordId.IsReduced text := by
    refine List.forall_mem_cons.2 ⟨?_, List.forall_mem_singleton.2 ?_⟩
    · exact ⟨"12".toList, "0".toList, by decide, by decide, by decide⟩
    · exact ⟨"7".toList, "10".toList, by decide, by decide, by decide⟩
  obtain ⟨htarget, -, hreads⟩ :=
    @reads_target_iff {} {} (Request.ofRecords texts) _ texts rfl rfl
  exact ⟨_, rfl, hreads.2 hreduced, htarget⟩

/-- An id with a blank in front of it and a zero in front of its cluster. -/
theorem reads_ne_target_padded :
    ∃ q, ofRequest {} {} (Request.ofRecords [" #012:0"]) = .ok q ∧ q.target = "[ #012:0]" ∧
      q.selection.toStatement.text = "SELECT * FROM [#12:0]" ∧
      q.selection.toStatement.text ≠ "SELECT * FROM " ++ q.target :=
  ⟨_, rfl, by decide +kernel, by decide +kernel, by decide +kernel⟩

end Query

end RecordQuery
