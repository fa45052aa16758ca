import RecordQuery.DisplayName
import RecordQuery.Proofs.Ids

/-!
# Ranges in positional notation

A break is a location in a coordinate system, which a letter stands for: `p.E746`. The notation of
a variant over a range of two breaks gives the first in full and of the second the location alone,
so whoever reads it takes the second to be in the system of the first. That is so if and only if the
two have the same letter. Otherwise the letter of the second is lost, and the range is written like
another one.

* `Break` — a letter and a location.
* `readRange` — reads the position of a variant as a range.
* `positionalNotation_range` — what is written of a range, and as what it is read.
-/

namespace RecordQuery

-- ---------------------------------------------------------------------------
-- Breaks
-- ---------------------------------------------------------------------------

/-- A location in the coordinate system of a letter. -/
structure Break where
  letter : Char
  location : String
  isLetter : letter.isAlpha = true
  ne_empty : location ≠ ""
  isAlphanum : location.toList.all Char.isAlphanum = true

namespace Break

/-- The letter, a point and the location. -/
def text (b : Break) : String := b.letter.toString ++ "." ++ b.location

theorem toList_text (b : Break) : b.text.toList = b.letter :: '.' :: b.location.toList := by
  simp [text]

/-- Neither the point nor the dash of a range stands in a location. -/
theorem not_mem_location (b : Break) {c : Char} (hc : c.isAlphanum = false) :
    c ∉ b.location.toList := by
  intro hmem
  rw [List.all_eq_true.1 b.isAlphanum c hmem] at hc
  cases hc

/-- The letter is none of the characters outside the alphabet. -/
theorem letter_ne (b : Break) {c : Char} (hc : c.isAlpha = false) : b.letter ≠ c := by
  rintro rfl
  rw [b.isLetter] at hc
  cases hc

/-- A letter is a character of one byte. -/
theorem letter_lt (b : Break) : b.letter.toNat < 0x80 := by
  have hcase : (b.letter.isUpper || b.letter.isLower) = true := b.isLetter
  rw [Bool.or_eq_true] at hcase
  rcases hcase with hupper | hlower
  · have hle : b.letter.toNat ≤ 90 := (of_decide_eq_true hupper).2
    omega
  · have hle : b.letter.toNat ≤ 122 := of_decide_eq_true (Bool.and_eq_true_iff.1 hlower).2
    omega

end Break

-- ---------------------------------------------------------------------------
-- Reading a position
-- ---------------------------------------------------------------------------

/-- The letter and the point in front of a break, if there are any. -/
def coordinate : List Char → List Char
  | letter :: '.' :: _ => [letter, '.']
  | _ => []

/-- Reads a position as a range. The text up to the first `_` is the start. What is behind it is the
end, which takes the letter and the point of the start if it has none of its own. -/
def readRange (position : String) : Option (String × String) :=
  (Text.cut '_' position.toList).map fun (start, stop) =>
    (String.ofList start,
      String.ofList (if coordinate stop = [] then coordinate start ++ stop else stop))

/-- A location has no letter and point in front. -/
theorem Break.coordinate_location (b : Break) : coordinate b.location.toList = [] := by
  have hpoint := b.not_mem_location (c := '.') (by decide)
  cases hlocation : b.location.toList with
  | nil => rfl
  | cons c rest =>
    rw [hlocation] at hpoint
    unfold coordinate
    split
    · next heq =>
      rw [heq] at hpoint
      exact absurd (by simp) hpoint
    · rfl

/-- A location behind a break is read in the system of that break, whatever the letter of the break
that it was taken from. -/
theorem readRange_text (start stop : Break) :
    readRange (start.text ++ "_" ++ stop.location) =
      some (start.text, start.letter.toString ++ "." ++ stop.location) := by
  have hdash : '_' ∉ start.text.toList := by
    rw [start.toList_text, List.mem_cons, List.mem_cons, not_or, not_or]
    exact ⟨(start.letter_ne (by decide)).symm, by decide, start.not_mem_location (by decide)⟩
  have hposition : (start.text ++ "_" ++ stop.location).toList =
      start.text.toList ++ '_' :: stop.location.toList := by
    simp
  -- the first `_` is the one that was put between the two, as neither has one of its own
  have hstart : coordinate start.text.toList = [start.letter, '.'] := by
    rw [start.toList_text, coordinate]
  rw [readRange, hposition, Text.cut_append hdash, Option.map_some]
  dsimp only
  rw [if_pos stop.coordinate_location, hstart, String.ofList_toList, Option.some_inj,
    Prod.mk.injEq, and_iff_right rfl, ← String.toList_inj, String.toList_ofList]
  simp

-- ---------------------------------------------------------------------------
-- What is written of a range
-- ---------------------------------------------------------------------------

/-- Without its letter and point a break is its location. -/
theorem withoutCoordinate_text (b : Break) : withoutCoordinate b.text = b.location := by
  have hpoint : '.' ∉ [b.letter] := by
    rw [List.mem_singleton]
    exact (b.letter_ne (by decide)).symm
  have hcut : Text.cut '.' b.text.toList = some ([b.letter], b.location.toList) := by
    rw [b.toList_text]
    exact Text.cut_append hpoint _
  rw [withoutCoordinate, hcut]
  dsimp only
  rw [if_pos b.letter_lt, String.ofList_toList]

/-- The position of a range is the start in full and only the location of the end. -/
theorem positionText_text (start stop : Break) :
    positionText start.text stop.text = start.text ++ "_" ++ stop.location := by
  have hne : stop.text.isEmpty = false := by
    rw [Bool.eq_false_iff, ne_eq, String.isEmpty_iff, ← String.toList_inj, stop.toList_text]
    exact List.cons_ne_nil _ _
  rw [positionText, hne, withoutCoordinate_text]
  rfl

/-- The position of a variant over a range, whatever its type: the first break in full and the
location of the second. Read back, the second is in the system of the first, so the two breaks come
back if and only if they have the same letter. -/
theorem positionalNotation_range {content : Record} {start stop : Break}
    (hstart : content.text? "break1Repr" = some start.text)
    (hstop : content.text? "break2Repr" = some stop.text) (type reference1 : String) :
    let position := start.text ++ "_" ++ stop.location
    positionalNotation content type reference1 none =
        reference1 ++ ":" ++ position ++ changeText type ((content.text? "refSeq").getD "")
          ((content.text? "untemplatedSeq").getD "") ∧
      readRange position = some (start.text, start.letter.toString ++ "." ++ stop.location) ∧
      (readRange position = some (start.text, stop.text) ↔ start.letter = stop.letter) := by
  intro position
  have hread := readRange_text start stop
  refine ⟨?_, hread, ?_⟩
  · rw [positionalNotation]
    simp only [hstart, hstop, Option.getD_some, positionText_text, position]
  · rw [hread, Option.some_inj, Prod.mk.injEq, and_iff_right rfl, ← String.toList_inj,
      stop.toList_text]
    simp

/-- A range of amino acids, both ends in the system of the protein. -/
theorem positionalNotation_range_protein :
    let content : Record :=
      { properties := [("break1Repr", .string "p.E746"), ("break2Repr", .string "p.A750")] }
    content.text? "break1Repr" = some "p.E746" ∧ content.text? "break2Repr" = some "p.A750" ∧
      positionalNotation content "deletion" "EGFR" none = "EGFR:p.E746_A750del" ∧
      readRange "p.E746_A750" = some ("p.E746", "p.A750") := by
  intro content
  let start : Break := ⟨'p', "E746", by decide, by decide, by decide⟩
  let stop : Break := ⟨'p', "A750", by decide, by decide, by decide⟩
  have hstart : content.text? "break1Repr" = some start.text := by decide +kernel
  have hstop : content.text? "break2Repr" = some stop.text := by decide +kernel
  obtain ⟨hwritten, -, hread⟩ := positionalNotation_range hstart hstop "deletion" "EGFR"
  exact ⟨hstart, hstop, hwritten, hread.2 rfl⟩

/-- A range from a coding position to an amino acid has the notation of a range between two coding
positions, and is read as that one. -/
theorem readRange_ne_mixed :
    let content (break2 : String) : Record :=
      { properties := [("break1Repr", .string "c.100"), ("break2Repr", .string break2)] }
    positionalNotation (content "p.A750") "deletion" "EGFR" none = "EGFR:c.100_A750del" ∧
      positionalNotation (content "c.A750") "deletion" "EGFR" none = "EGFR:c.100_A750del" ∧
      readRange "c.100_A750" = some ("c.100", "c.A750") ∧
      readRange "c.100_A750" ≠ some ("c.100", "p.A750") := by
  decide

end RecordQuery
