/-!
# Cutting a text at a character

`cut` splits at the first occurrence of a character, `segments` at every occurrence. Joining the
segments again with the character gives the text back (`intercalate_segmentsOf`), so a character of
the text is in one of the segments or the one that was cut at (`mem_intercalate`).
-/

namespace RecordQuery.Text

/-- What stands before and after the first `sep`, if there is one. -/
def cut (sep : Char) : List Char → Option (List Char × List Char)
  | [] => none
  | c :: rest =>
    if c = sep then some ([], rest)
    else (cut sep rest).map fun (before, after) => (c :: before, after)

/-- The segments between the occurrences of `sep`; `k` occurrences make `k + 1` segments. -/
def segmentsOf (sep : Char) : List Char → List (List Char)
  | [] => [[]]
  | c :: rest =>
    if c = sep then [] :: segmentsOf sep rest
    else
      match segmentsOf sep rest with
      | [] => [[c]]
      | first :: others => (c :: first) :: others

/-- The segments of a text. -/
def segments (sep : Char) (s : String) : List String :=
  (segmentsOf sep s.toList).map String.ofList

theorem segmentsOf_ne_nil (sep : Char) (cs : List Char) : segmentsOf sep cs ≠ [] := by
  cases cs with
  | nil => simp [segmentsOf]
  | cons c rest =>
    unfold segmentsOf
    split
    · simp
    · split <;> simp

theorem cut_eq_some {sep : Char} {cs before after : List Char}
    (h : cut sep cs = some (before, after)) : cs = before ++ sep :: after ∧ sep ∉ before := by
  induction cs generalizing before with
  | nil => simp [cut] at h
  | cons c rest ih =>
    unfold cut at h
    split at h
    · next hc =>
      obtain ⟨rfl, rfl⟩ := Prod.mk.inj (Option.some.inj h)
      simp [hc]
    · next hc =>
      obtain ⟨⟨b, a⟩, hr, heq⟩ := Option.map_eq_some_iff.1 h
      obtain ⟨rfl, rfl⟩ := Prod.mk.inj heq
      obtain ⟨hrest, hmem⟩ := ih hr
      exact ⟨by simp [hrest], by simp [hmem, Ne.symm hc]⟩

/-- The separator between the parts of a text gives back the text. -/
theorem intercalate_segmentsOf (sep : Char) (cs : List Char) :
    [sep].intercalate (segmentsOf sep cs) = cs := by
  induction cs with
  | nil => simp [segmentsOf]
  | cons c rest ih =>
    have hne := segmentsOf_ne_nil sep rest
    unfold segmentsOf
    split
    -- a separator: there is one more part, an empty one, in front
    · next hc =>
      cases hs : segmentsOf sep rest with
      | nil => exact absurd hs hne
      | cons first others => simp_all
    · cases hs : segmentsOf sep rest with
      | nil => exact absurd hs hne
      | cons first others =>
        rw [hs] at ih
        cases others <;> simp_all

/-- What joined parts hold is held by a part, or is the separator. -/
theorem mem_intercalate {α : Type} {c sep : α} {parts : List (List α)}
    (h : c ∈ [sep].intercalate parts) : c = sep ∨ ∃ part ∈ parts, c ∈ part := by
  induction parts with
  | nil => simp at h
  | cons part rest ih =>
    cases rest with
    | nil => exact .inr ⟨part, List.mem_cons_self .., by simpa using h⟩
    | cons next rest =>
      rw [List.intercalate_cons_cons, List.mem_append, List.mem_append] at h
      rcases h with (h | h) | h
      · exact .inr ⟨part, List.mem_cons_self .., h⟩
      · exact .inl (List.mem_singleton.1 h)
      · obtain hsep | ⟨found, hfound, hc⟩ := ih h
        · exact .inl hsep
        · exact .inr ⟨found, List.mem_cons_of_mem _ hfound, hc⟩

end RecordQuery.Text
