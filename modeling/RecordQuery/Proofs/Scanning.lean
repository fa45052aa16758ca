import RecordQuery.Proofs.Composition

/-!
# Finding the placeholders of a text

The placeholders of a statement are found by looking at its text, which knows nothing of how it came
about. This module shows that looking finds exactly the literals of the draft, and where they stand:

* `Plain` — a text in which no placeholder starts, whatever follows it: no colon has the letter `p`
  behind it, and none is the last character. What a selection writes around its names is plain, and
  so are names without a colon.
* `Segment.halts`, `Stops` — a text that may stand behind the digits of a placeholder without adding
  to them; one that stops them is not empty either.
* `Draft.Scans` — the pieces of the spelled draft, in front of any text that halts, are the characters
  of its texts and one placeholder for each of its literals. `Draft.composes_scans` puts drafts
  together from such drafts.
* `Selection.scans_draft` — without a colon in the names, the draft of a selection is one of them.
-/

namespace RecordQuery

namespace Segment

/-- Whether no placeholder starts in a text, whatever follows it. -/
def isPlain : List Char → Bool
  | [] => true
  | [c] => c ≠ ':'
  | c :: d :: rest => !(c = ':' && d = 'p') && isPlain (d :: rest)

/-- Whether a text adds no digit to a number that it stands behind. -/
def halts (cs : List Char) : Bool := cs.head?.all fun c => !c.isDigit

theorem mark_eq : mark = [':', 'p', 'a', 'r', 'a', 'm'] := by decide

/-- Plain texts are plain one behind the other: what may follow the first was looked at with the
second. -/
theorem isPlain_append {front back : List Char} (hfront : isPlain front = true)
    (hback : isPlain back = true) : isPlain (front ++ back) = true := by
  fun_induction isPlain front with
  | case1 => exact hback
  | case2 c =>
    rw [decide_eq_true_eq] at hfront
    cases back with
    | nil => simpa [isPlain] using hfront
    | cons d rest => simpa [isPlain, hfront] using hback
  | case3 c d rest ih =>
    rw [Bool.and_eq_true] at hfront
    rw [List.cons_append, List.cons_append, isPlain, Bool.and_eq_true]
    exact ⟨hfront.1, ih hfront.2⟩

/-- A text without a colon is plain. -/
theorem isPlain_of_not_mem {cs : List Char} (h : ':' ∉ cs) : isPlain cs = true := by
  fun_induction isPlain cs with
  | case1 => rfl
  | case2 c =>
    rw [decide_eq_true_eq]
    rintro rfl
    exact h (List.mem_cons_self ..)
  | case3 c d rest ih =>
    rw [List.mem_cons, not_or] at h
    simp [ih h.2, Ne.symm h.1]

/-- No placeholder starts at another character, or at a colon without a `p` behind it. -/
theorem placeholder?_eq_none {c : Char} {rest : List Char}
    (h : c = ':' → rest.head? ≠ some 'p') : placeholder? (c :: rest) = none := by
  have hmark : mark.isPrefixOf (c :: rest) = false := by
    rw [mark_eq]
    by_cases hc : c = ':'
    · subst hc
      cases rest with
      | nil => rfl
      | cons d rest =>
        have hd : d ≠ 'p' := by simpa using h rfl
        simp [List.isPrefixOf, Ne.symm hd]
    · simp [List.isPrefixOf, Ne.symm hc]
  rw [placeholder?, if_neg (by rw [hmark]; decide)]

theorem scan_cons_of_none {c : Char} {rest : List Char} (h : placeholder? (c :: rest) = none) :
    scan 0 (c :: rest) = .character c :: scan 0 rest := by
  rw [scan, h]

/-- A plain text is cut into its characters, whatever stands behind it: it ends with no beginning of
a placeholder. -/
theorem scan_plain {cs : List Char} (h : isPlain cs = true) (rest : List Char) :
    scan 0 (cs ++ rest) = cs.map .character ++ scan 0 rest := by
  fun_induction isPlain cs with
  | case1 => rfl
  | case2 c =>
    rw [decide_eq_true_eq] at h
    exact scan_cons_of_none (placeholder?_eq_none fun hc => absurd hc h)
  -- a colon with something else than a `p` behind it starts nothing, whatever stands in `rest`
  | case3 c d others ih =>
    rw [Bool.and_eq_true, Bool.not_eq_true', Bool.and_eq_false_imp, decide_eq_true_eq] at h
    obtain ⟨hcolon, hothers⟩ := h
    have hnone : placeholder? (c :: (d :: others ++ rest)) = none := by
      refine placeholder?_eq_none fun hc => ?_
      simpa using hcolon hc
    rw [List.cons_append, scan_cons_of_none hnone, ih hothers]
    rfl

/-- What belongs to a placeholder is passed over. -/
theorem scan_skip (cs rest : List Char) : scan cs.length (cs ++ rest) = scan 0 rest := by
  induction cs with
  | nil => rfl
  | cons c cs ih =>
    rw [List.length_cons, List.cons_append, scan]
    exact ih

/-- The digits of a placeholder end where the rest starts. -/
theorem takeWhile_isDigit {digits rest : List Char} (hdigits : digits.all Char.isDigit = true)
    (hrest : halts rest = true) : (digits ++ rest).takeWhile Char.isDigit = digits := by
  have hnone : rest.takeWhile Char.isDigit = [] := by
    cases rest with
    | nil => rfl
    | cons c cs =>
      have hc : c.isDigit = false := by simpa [halts] using hrest
      rw [List.takeWhile_cons, hc]
      rfl
  rw [List.takeWhile_append_of_pos (by simpa using hdigits), hnone, List.append_nil]

/-- A placeholder is found with all of its digits. -/
theorem scan_placeholder {digits rest : List Char} (hdigits : Text.isNumeral digits = true)
    (hrest : halts rest = true) :
    scan 0 (mark ++ digits ++ rest) = .placeholder digits :: scan 0 rest := by
  rw [Text.isNumeral, Bool.and_eq_true] at hdigits
  obtain ⟨hne, hall⟩ := hdigits
  -- the digits end where the rest halts, so all of them belong to the name
  have htake := takeWhile_isDigit hall hrest
  have hfound : placeholder? (mark ++ digits ++ rest) = some digits := by
    rw [placeholder?, if_pos (by simp [List.append_assoc])]
    rw [List.append_assoc, List.drop_left, htake]
    cases digits with
    | nil => cases hne
    | cons d ds => rfl
  rw [mark_eq] at hfound ⊢
  -- the scan goes on behind the placeholder: as many characters are skipped as the name has
  rw [List.cons_append, List.cons_append] at hfound ⊢
  rw [scan, hfound]
  have hlength : ([':', 'p', 'a', 'r', 'a', 'm'] : List Char).length + digits.length - 1 =
      (['p', 'a', 'r', 'a', 'm'] ++ digits).length := by
    simp
    omega
  dsimp only
  rw [mark_eq, hlength, scan_skip]

end Segment

-- ---------------------------------------------------------------------------
-- Numerals and ids
-- ---------------------------------------------------------------------------

theorem name_eq_stem_digits (n : Nat) :
    Binder.name n = Segment.placeholderName (Nat.toDigits 10 n) := by
  rw [Binder.name, Segment.placeholderName, Nat.toString_eq_ofList_toDigits]

/-- A placeholder is its mark and the digits of its number. -/
theorem toList_placeholder (n : Nat) :
    (":" ++ Binder.name n).toList = Segment.mark ++ Nat.toDigits 10 n := by
  have hword : ":".toList ++ Binder.stem.toList = Segment.mark := by decide
  rw [name_eq_stem_digits, Segment.placeholderName, String.toList_append, String.toList_append,
    ← List.append_assoc, hword]
  exact congrArg (Segment.mark ++ ·) String.toList_ofList

/-- A number is written without a colon. -/
theorem colon_not_mem_toString_nat (n : Nat) : ':' ∉ (toString n).toList := by
  intro h
  have := Text.isDigit_of_mem_toString h
  revert this
  decide

/-- The colon of a record id stands in front of a number. -/
theorem RecordId.isPlain_text (id : RecordId) : Segment.isPlain id.text.toList = true := by
  have hcluster : ':' ∉ (toString id.cluster.toInt).toList := by
    intro h
    rcases Text.mem_toString_int h with h | h <;> revert h <;> decide
  -- a placeholder would need a `p` right behind the colon, where the number starts
  have hposition : Segment.isPlain (':' :: (toString id.position.toInt).toList) = true := by
    cases hdigits : (toString id.position.toInt).toList with
    | nil => exact absurd hdigits (Text.toString_int_ne_nil _)
    | cons d rest =>
      have hmem : ∀ c ∈ d :: rest, c = '-' ∨ c.isDigit = true := by
        intro c hc
        rw [← hdigits] at hc
        exact Text.mem_toString_int hc
      have hd : d ≠ 'p' := by
        rintro rfl
        rcases hmem 'p' (List.mem_cons_self ..) with h | h <;> revert h <;> decide
      have hcolon : ':' ∉ d :: rest := by
        intro h
        rcases hmem ':' h with h | h <;> revert h <;> decide
      rw [Segment.isPlain, Bool.and_eq_true]
      exact ⟨by simp [hd], Segment.isPlain_of_not_mem hcolon⟩
  rw [text, String.toList_append, String.toList_append, String.toList_append, List.append_assoc]
  refine Segment.isPlain_append (Segment.isPlain_append (by decide) ?_) hposition
  exact Segment.isPlain_of_not_mem hcluster

-- ---------------------------------------------------------------------------
-- Plain texts
-- ---------------------------------------------------------------------------

/-- A text in which no placeholder starts. -/
def Plain (s : String) : Prop := Segment.isPlain s.toList = true

instance (s : String) : Decidable (Plain s) := inferInstanceAs (Decidable (_ = true))

/-- No name in the list holds a colon. -/
def WithoutColon (names : List String) : Prop := ∀ name ∈ names, ':' ∉ name.toList

namespace Plain

/-- Plain texts are plain one behind the other. -/
theorem append {s t : String} (hs : Plain s) (ht : Plain t) : Plain (s ++ t) := by
  rw [Plain, String.toList_append]
  exact Segment.isPlain_append hs ht

/-- Plain texts with a plain separator are plain. -/
theorem intercalate {separator : String} {texts : List String} (hseparator : Plain separator)
    (htexts : ∀ s ∈ texts, Plain s) : Plain (separator.intercalate texts) := by
  induction texts with
  | nil =>
    rw [String.intercalate_nil]
    decide
  | cons s rest ih =>
    have hs := htexts s (List.mem_cons_self ..)
    have hrest := ih fun t ht => htexts t (List.mem_cons_of_mem _ ht)
    cases rest with
    | nil => simpa using hs
    | cons t rest =>
      rw [String.intercalate_cons_cons]
      exact (hs.append hseparator).append hrest

theorem name {s : String} (h : ':' ∉ s.toList) : Plain s := Segment.isPlain_of_not_mem h

theorem number (n : Nat) : Plain (toString n) := name (colon_not_mem_toString_nat n)

/-- The text of records is plain, as its colons stand in ids. -/
theorem recordsText (ids : List RecordId) : Plain (recordsText ids) := by
  refine .append (.append (by decide) ?_) (by decide)
  refine intercalate (by decide) fun s hs => ?_
  obtain ⟨id, -, rfl⟩ := List.mem_map.1 hs
  exact id.isPlain_text

/-- The call of a traversal is plain if its edges have no colon. -/
theorem edgeCall (direction : Direction) {edges : List String} (h : WithoutColon edges) :
    Plain (Traversal.edgeCall direction edges) := by
  have hdirection : Plain direction.name := by cases direction <;> decide
  refine .append (.append (hdirection.append (by decide)) ?_) (by decide)
  refine intercalate (by decide) fun s hs => ?_
  obtain ⟨edge, hedge, rfl⟩ := List.mem_map.1 hs
  exact .append (.append (by decide) (.name (h edge hedge))) (by decide)

variable {traversal : Option Traversal} {className : String}

/-- The text around a condition is plain on both sides of it. -/
theorem opening (hclass : ':' ∉ className.toList) (hedges : WithoutColon (Traversal.names traversal))
    (grouped : Bool) : Plain (Traversal.opening traversal className grouped) := by
  have hname := Plain.name hclass
  unfold Traversal.opening
  rcases traversal with _ | (⟨edges, direction, depth⟩ | ⟨edges, direction, maxDepth⟩)
  · exact .append (.append (by decide) hname) (by decide)
  · refine .append (.append (.append (.append (by decide) (by decide)) hname) (by decide)) ?_
    cases grouped <;> decide
  · have hcall : Plain (Traversal.edgeCall direction edges) := edgeCall direction hedges
    exact .append (.append (.append (.append (.append (by decide) hcall) (by decide)) (by decide))
      hname) (by decide)

/-- The text behind the condition is plain. -/
theorem closing (hedges : WithoutColon (Traversal.names traversal)) (grouped : Bool) :
    Plain (Traversal.closing traversal grouped) := by
  unfold Traversal.closing
  rcases traversal with _ | (⟨edges, direction, depth⟩ | ⟨edges, direction, maxDepth⟩)
  · show Plain ""
    decide
  · have hcall : Plain (Traversal.edgeCall direction edges) := edgeCall direction hedges
    have hdepth : Plain (toString depth) := number depth.toNat
    have hparen : Plain (if grouped then "" else ")") := by cases grouped <;> decide
    exact .append (.append (.append (.append (.append (.append hparen (by decide)) (by decide))
      hcall) (by decide)) hdepth) (by decide)
  · exact .append (by decide) (number maxDepth.toNat)

/-- A text without a condition is plain if its names have no colon. -/
theorem text (hclass : ':' ∉ className.toList) (hedges : WithoutColon (Traversal.names traversal))
    (grouped : Bool) : Plain (Traversal.text traversal className none grouped) := by
  have hname := Plain.name hclass
  unfold Traversal.text
  -- all pieces but the class, the call and the depth are fixed texts
  rcases traversal with _ | (⟨edges, direction, depth⟩ | ⟨edges, direction, maxDepth⟩)
  · exact .append (by decide) hname
  · have hcall : Plain (Traversal.edgeCall direction edges) := edgeCall direction hedges
    have hdepth : Plain (toString depth) := number depth.toNat
    have hroot : Plain (Traversal.rootText className none grouped) :=
      .append (.append (by decide) hname) (by decide)
    exact .append (.append (.append (.append (.append (.append (by decide) hroot) (by decide))
      hcall) (by decide)) hdepth) (by decide)
  · have hcall : Plain (Traversal.edgeCall direction edges) := edgeCall direction hedges
    have hdepth : Plain (toString maxDepth) := number maxDepth.toNat
    have hselect : Plain (Traversal.selectText className none) := .append (by decide) hname
    exact .append (.append (.append (.append (.append (by decide) hcall) (by decide)) hselect)
      (by decide)) hdepth

end Plain

-- ---------------------------------------------------------------------------
-- Texts behind a placeholder
-- ---------------------------------------------------------------------------

/-- A text that starts with a character other than a digit. -/
def Stops (s : String) : Prop := s.toList.head?.any (fun c => !c.isDigit) = true

instance (s : String) : Decidable (Stops s) := inferInstanceAs (Decidable (_ = true))

/-- The first character of a text that stops is known. -/
theorem Stops.exists_cons {s : String} (hs : Stops s) :
    ∃ c cs, s.toList = c :: cs ∧ (!c.isDigit) = true := by
  rw [Stops] at hs
  cases hchars : s.toList with
  | nil =>
    rw [hchars] at hs
    cases hs
  | cons c cs =>
    rw [hchars] at hs
    exact ⟨c, cs, rfl, hs⟩

/-- A text stops a number by how it starts. -/
theorem Stops.append {s : String} (hs : Stops s) (t : String) : Stops (s ++ t) := by
  obtain ⟨c, cs, hchars, hc⟩ := hs.exists_cons
  rw [Stops, String.toList_append, hchars]
  exact hc

/-- What stops the digits of a placeholder does so whatever follows it. -/
theorem Stops.halts_append {s : String} (hs : Stops s) (rest : List Char) :
    Segment.halts (s.toList ++ rest) = true := by
  obtain ⟨c, cs, hchars, hc⟩ := hs.exists_cons
  rw [hchars]
  exact hc

theorem Stops.halts {s : String} (hs : Stops s) : Segment.halts s.toList = true := by
  have h := hs.halts_append []
  rwa [List.append_nil] at h

/-- Of two texts one behind the other the first may stand behind a number, or is empty and the
second may. -/
theorem Segment.halts_append {front back : List Char} (hfront : halts front = true)
    (hback : halts back = true) : halts (front ++ back) = true := by
  cases front with
  | nil => exact hback
  | cons c cs => exact hfront

/-- No digit stands right behind the condition of the roots. -/
theorem Traversal.halts_closing (traversal : Option Traversal) (grouped : Bool) :
    Segment.halts (closing traversal grouped).toList = true := by
  unfold closing
  rcases traversal with _ | (⟨edges, direction, depth⟩ | ⟨edges, direction, maxDepth⟩)
  · rfl
  · have hfirst : Stops ((if grouped then "" else ")") ++ "\x7d") := by cases grouped <;> decide
    exact Stops.halts (((((hfirst.append _).append _).append _).append _).append _)
  · exact Stops.halts (.append (by decide) _)

-- ---------------------------------------------------------------------------
-- Drafts whose literals are found
-- ---------------------------------------------------------------------------

namespace Draft

/-- The pieces of a draft whose placeholders are numbered from `n` on. -/
def segments (n : Nat) : Draft → List Segment
  | [] => []
  | .text s :: rest => s.toList.map .character ++ segments n rest
  | .literal _ :: rest => .placeholder (Nat.toDigits 10 n) :: segments (n + 1) rest

/-- Looking at the spelled draft finds its literals and nothing else. -/
def Scans (d : Draft) : Prop :=
  ∀ n rest, Segment.halts rest = true →
    Segment.scan 0 ((d.spell n).toList ++ rest) = d.segments n ++ Segment.scan 0 rest

/-- The spelled draft may stand behind a placeholder. -/
def Halts (d : Draft) : Prop :=
  ∀ n rest, Segment.halts rest = true → Segment.halts ((d.spell n).toList ++ rest) = true

/-- The pieces of two drafts one behind the other are numbered through. -/
theorem segments_append (n : Nat) (front back : Draft) :
    segments n (front ++ back) = segments n front ++ segments (n + front.literals.length) back := by
  induction front generalizing n with
  | nil => simp [segments, literals]
  | cons fragment rest ih =>
    cases fragment with
    | text s => simp [segments, literals, ih]
    | literal value =>
      have hnext : n + 1 + (literals rest).length = n + ((literals rest).length + 1) := by omega
      simp [segments, literals, ih, hnext]

/-- Looking at the whole text finds the pieces of the draft. -/
theorem Scans.segments_spell {d : Draft} (hd : Scans d) (n : Nat) :
    RecordQuery.segments (d.spell n) = d.segments n := by
  have hscan := hd n [] rfl
  rwa [List.append_nil, Segment.scan, List.append_nil] at hscan

theorem Scans.nil : Scans [] := by
  intro n rest _
  simp [spell, segments]

/-- A plain text in front of a draft hides nothing of it. -/
theorem Scans.text_cons {s : String} {d : Draft} (hs : Plain s) (hd : Scans d) :
    Scans (.text s :: d) := by
  intro n rest hrest
  rw [spell, String.toList_append, List.append_assoc, Segment.scan_plain hs, hd n rest hrest,
    segments, List.append_assoc]

theorem Scans.text {s : String} (hs : Plain s) : Scans [.text s] :=
  Scans.text_cons hs Scans.nil

/-- A literal is found as its placeholder. -/
theorem Scans.literal (value : Value) : Scans [.literal value] := by
  intro n rest hrest
  rw [spell, spell, String.append_empty, toList_placeholder,
    Segment.scan_placeholder (Text.isNumeral_toDigits n) hrest]
  rfl

/-- Both drafts are found if no digit of the second is taken for one of the first. -/
theorem Scans.append {front back : Draft} (hfront : Scans front) (hback : Scans back)
    (hhalts : Halts back) : Scans (front ++ back) := by
  intro n rest hrest
  rw [spell_append, String.toList_append, List.append_assoc, hfront n _ (hhalts _ rest hrest),
    hback _ rest hrest, segments_append, List.append_assoc]

/-- A draft may stand behind a placeholder if it starts with a text that stops. -/
theorem Halts.text_cons {s : String} (hs : Stops s) (d : Draft) : Halts (.text s :: d) := by
  intro n rest _
  rw [spell, String.toList_append, List.append_assoc]
  exact hs.halts_append _

/-- A draft of one text may stand behind a placeholder if the text may. -/
theorem Halts.text {s : String} (hs : Segment.halts s.toList = true) : Halts [.text s] := by
  intro n rest hrest
  rw [spell, spell, String.append_empty]
  exact Segment.halts_append hs hrest

/-- A draft between two texts, of which the second may stand behind a placeholder. -/
theorem Scans.around {front back : String} {d : Draft} (hfront : Plain front) (hd : Scans d)
    (hback : Plain back) (hhalts : Segment.halts back.toList = true) :
    Scans (.text front :: d ++ [.text back]) :=
  Scans.text_cons hfront (hd.append (Scans.text hback) (Halts.text hhalts))

/-- Drafts are found between separators that stop the numbers in front of them. -/
theorem Scans.intercalate {separator : String} (hplain : Plain separator)
    (hstops : Stops separator) {drafts : List Draft} (hdrafts : ∀ d ∈ drafts, Scans d) :
    Scans ([Fragment.text separator].intercalate drafts) := by
  induction drafts with
  | nil => exact Scans.nil
  | cons d rest ih =>
    have hd := hdrafts d (List.mem_cons_self ..)
    have hrest := ih fun e he => hdrafts e (List.mem_cons_of_mem _ he)
    cases rest with
    | nil => simpa using hd
    | cons e rest =>
      rw [List.intercalate_cons_cons, List.append_assoc]
      exact hd.append (Scans.text_cons hplain hrest) (Halts.text_cons hstops _)

/-- Without a colon in the names, exactly the literals are found. One case for each way in which
drafts are composed, all by what stands around their parts. -/
theorem composes_scans : Composes (fun name => ':' ∉ name.toList) Scans where
  deletionTime := by decide
  absence property hproperty := Scans.text ((Plain.name hproperty).append (by decide))
  -- each piece of text is plain, and each halts the digits of a literal in front of it
  parameter property operator value hproperty := by
    have hkeyword : Plain operator.keyword := by cases operator <;> decide
    refine Scans.text_cons ?_ (Scans.literal value)
    exact .append (.append ((Plain.name hproperty).append (by decide)) hkeyword) (by decide)
  nested property operator inner hproperty hinner := by
    have hkeyword : Plain operator.selectionKeyword := by cases operator <;> decide
    refine Scans.around ?_ hinner (by decide) rfl
    exact .append (.append ((Plain.name hproperty).append (by decide)) hkeyword) (by decide)
  negation body hbody := Scans.around (by decide) hbody (by decide) rfl
  junction joiner hjoiner drafts hdrafts := by
    have hplain : Plain (" " ++ joiner ++ " ") := by
      rcases List.mem_pair.1 hjoiner with rfl | rfl <;> decide
    have hstops : Stops (" " ++ joiner ++ " ") := .append (.append (by decide) _) _
    exact Scans.around (by decide) (Scans.intercalate hplain hstops hdrafts) (by decide) rfl
  records ids := Scans.text (Plain.recordsText ids)
  named traversal className condition grouped hclass hedges hcondition := by
    cases condition with
    | none => exact Scans.text (Plain.text hclass hedges grouped)
    | some d =>
      exact Scans.around (Plain.opening hclass hedges grouped) (hcondition d rfl)
        (Plain.closing hedges grouped) (Traversal.halts_closing traversal grouped)

end Draft

/-- The literals of a selection are found in its text, and nothing else is. -/
theorem Selection.scans_draft {s : Selection} (h : WithoutColon s.names) : s.draft.Scans :=
  Draft.composes_scans.selection h

end RecordQuery
