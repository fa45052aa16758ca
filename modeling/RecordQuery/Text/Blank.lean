/-!
# Blanks: the space around and between words

A character is *blank* when it has the Unicode property White_Space. Two readings of a text rest on
it:

* `trim` drops the blanks at both ends;
* `words` lists the maximal runs of characters that are not blank.

Lemmas: `isBlank_of_isWhitespace` (every white space of the core library is a blank),
`trimChars_append` and `exists_trimChars_eq` (blanks at the ends, and only those, are dropped),
`wordsFrom_ne_nil` (no word is empty) and `words_of_mem_words` (a word is the only word of itself).
-/

namespace RecordQuery.Text

/-- The White_Space property: the tabs and line ends `U+0009`–`U+000D`, the space, the next line,
the no-break space, the space of the ogham script, the typographic spaces `U+2000`–`U+200A`, the
two separators, the narrow no-break space, the mathematical space and the ideographic space. -/
def isBlank (c : Char) : Bool :=
  let n := c.toNat
  (9 ≤ n && n ≤ 13) || n == 0x20 || n == 0x85 || n == 0xA0 || n == 0x1680 ||
    (0x2000 ≤ n && n ≤ 0x200A) || n == 0x2028 || n == 0x2029 || n == 0x202F || n == 0x205F ||
    n == 0x3000

/-- The characters left when the blanks at both ends are dropped. -/
def trimChars (cs : List Char) : List Char :=
  ((cs.dropWhile isBlank).reverse.dropWhile isBlank).reverse

/-- The text without the blanks at its ends. -/
def trim (s : String) : String :=
  String.ofList (trimChars s.toList)

/-- The words of a list of characters, where `current` holds the letters of the word being read,
last letter first. -/
def wordsFrom (current : List Char) : List Char → List (List Char)
  | [] => if current.isEmpty then [] else [current.reverse]
  | c :: rest =>
    if isBlank c then
      if current.isEmpty then wordsFrom [] rest else current.reverse :: wordsFrom [] rest
    else wordsFrom (c :: current) rest

/-- The words of a text, in order. -/
def words (s : String) : List String :=
  (wordsFrom [] s.toList).map String.ofList

/-- The text with every run of blanks between words replaced by one space, and none at the ends. -/
def squeeze (s : String) : String :=
  " ".intercalate (words s)

/-- Every white space of the core library is a blank. -/
theorem isBlank_of_isWhitespace {c : Char} (h : c.isWhitespace = true) : isBlank c = true := by
  simp only [Char.isWhitespace, Bool.or_eq_true, decide_eq_true_eq] at h
  rcases h with ((rfl | rfl) | rfl) | rfl <;> decide

/-- No digit is a blank. -/
theorem isBlank_of_isDigit {c : Char} (h : c.isDigit = true) : isBlank c = false := by
  have hrange : 48 ≤ c.toNat ∧ c.toNat ≤ 57 := by
    simpa [Char.isDigit, UInt32.le_iff_toNat_le] using h
  obtain ⟨hlow, hhigh⟩ := hrange
  simp only [isBlank, Bool.or_eq_false_iff, Bool.and_eq_false_iff, decide_eq_false_iff_not,
    beq_eq_false_iff_ne]
  omega

theorem dropWhile_isBlank_append {front rest : List Char} (hfront : ∀ c ∈ front, isBlank c = true)
    (hrest : ∀ c ∈ rest.head?, isBlank c = false) :
    (front ++ rest).dropWhile isBlank = rest := by
  rw [List.dropWhile_append_of_pos hfront]
  cases rest with
  | nil => rfl
  | cons c rest => rw [List.dropWhile_cons_of_neg (by simp [hrest c rfl])]

/-- What has no blank at its ends is left when blanks around it are dropped. -/
theorem trimChars_append {front core back : List Char} (hfront : ∀ c ∈ front, isBlank c = true)
    (hback : ∀ c ∈ back, isBlank c = true) (hne : core ≠ [])
    (hfirst : ∀ c ∈ core.head?, isBlank c = false)
    (hlast : ∀ c ∈ core.getLast?, isBlank c = false) :
    trimChars (front ++ (core ++ back)) = core := by
  have hstart : (front ++ (core ++ back)).dropWhile isBlank = core ++ back := by
    refine dropWhile_isBlank_append hfront fun c hc => hfirst c ?_
    cases core with
    | nil => exact absurd rfl hne
    | cons first rest => exact hc
  have hend : (core ++ back).reverse.dropWhile isBlank = core.reverse := by
    rw [List.reverse_append]
    refine dropWhile_isBlank_append (fun c hc => hback c (List.mem_reverse.1 hc)) fun c hc => ?_
    rw [List.head?_reverse] at hc
    exact hlast c hc
  rw [trimChars, hstart, hend, List.reverse_reverse]

/-- Only blanks at the ends are dropped. -/
theorem exists_trimChars_eq (cs : List Char) :
    ∃ front back, cs = front ++ (trimChars cs ++ back) ∧ (∀ c ∈ front, isBlank c = true) ∧
      ∀ c ∈ back, isBlank c = true := by
  have hblank (ds : List Char) : ∀ c ∈ ds.takeWhile isBlank, isBlank c = true :=
    List.all_eq_true.1 List.all_takeWhile
  refine ⟨cs.takeWhile isBlank, ((cs.dropWhile isBlank).reverse.takeWhile isBlank).reverse, ?_,
    hblank cs, fun c hc => hblank _ c (List.mem_reverse.1 hc)⟩
  rw [trimChars, ← List.reverse_append, List.takeWhile_append_dropWhile, List.reverse_reverse,
    List.takeWhile_append_dropWhile]

/-- The scan leaves out empty words, also at the end. -/
theorem wordsFrom_ne_nil (cs current : List Char) : ∀ w ∈ wordsFrom current cs, w ≠ [] := by
  induction cs generalizing current with
  | nil =>
    intro w hw
    by_cases h : current.isEmpty
    · simp [wordsFrom, h] at hw
    · simp only [wordsFrom, h, Bool.false_eq_true, if_false, List.mem_singleton] at hw
      simpa [hw] using h
  | cons c rest ih =>
    intro w hw
    unfold wordsFrom at hw
    -- a blank ends the word that was open, if there is one
    split at hw
    · split at hw
      · exact ih [] w hw
      · next h =>
        rcases List.mem_cons.1 hw with rfl | hw
        · simpa using h
        · exact ih [] w hw
    · exact ih _ w hw

/-- What the scan splits off is free of blanks, if the word that is open is. -/
theorem not_isBlank_of_mem_wordsFrom {cs current : List Char}
    (h : ∀ c ∈ current, isBlank c = false) :
    ∀ w ∈ wordsFrom current cs, ∀ c ∈ w, isBlank c = false := by
  have hword : ∀ c ∈ current.reverse, isBlank c = false := fun c hc => h c (List.mem_reverse.1 hc)
  induction cs generalizing current with
  | nil =>
    intro w hw
    unfold wordsFrom at hw
    split at hw
    · cases hw
    · rwa [List.mem_singleton.1 hw]
  | cons d rest ih =>
    intro w hw
    unfold wordsFrom at hw
    split at hw
    · split at hw
      · exact ih (by simp) (by simp) w hw
      · rcases List.mem_cons.1 hw with rfl | hw
        · exact hword
        · exact ih (by simp) (by simp) w hw
    -- the letter is put in front: the open word is kept the wrong way round
    · next hd =>
      have hcurrent : ∀ c ∈ d :: current, isBlank c = false := by
        intro c hc
        rcases List.mem_cons.1 hc with rfl | hc
        · simpa using hd
        · exact h c hc
      exact ih hcurrent (fun c hc => hcurrent c (List.mem_reverse.1 hc)) w hw

/-- Without a blank the letters go on to one word. -/
theorem wordsFrom_of_not_isBlank {cs : List Char} (h : ∀ c ∈ cs, isBlank c = false)
    (current : List Char) : wordsFrom current cs = wordsFrom (cs.reverse ++ current) [] := by
  induction cs generalizing current with
  | nil => rfl
  | cons c rest ih =>
    have hstep : wordsFrom current (c :: rest) = wordsFrom (c :: current) rest := by
      rw [wordsFrom, h c (List.mem_cons_self ..)]
      rfl
    rw [hstep, ih fun d hd => h d (List.mem_cons_of_mem _ hd)]
    simp

/-- A word is the only word of itself. -/
theorem words_of_mem_words {s word : String} (h : word ∈ words s) : words word = [word] := by
  obtain ⟨cs, hcs, rfl⟩ := List.mem_map.1 h
  have hne : cs ≠ [] := wordsFrom_ne_nil _ _ cs hcs
  have hletters := not_isBlank_of_mem_wordsFrom (by simp) cs hcs
  rw [words, String.toList_ofList, wordsFrom_of_not_isBlank hletters]
  simp [wordsFrom, hne]

end RecordQuery.Text
