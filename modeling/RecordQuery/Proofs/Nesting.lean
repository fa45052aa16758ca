import RecordQuery.Proofs.Composition
import RecordQuery.Proofs.Reading

/-!
# Nested selections are read as one group

The text of a nested selection stands in parentheses. Reading it as one group needs nothing of what
it says, only that it opens and closes parentheses in pairs.

* `Lexeme.depth` counts the open parentheses behind a text; `Shifts` is the difference that a text
  makes, and adds up over the parts of a text.
* `Selection.closed_draft` — the text of a selection makes no difference, and never closes a
  parenthesis that it did not open, if no name holds one.
* `Item.reads_of_depth` — what makes no difference is read as items of its own.
-/

namespace RecordQuery

-- ---------------------------------------------------------------------------
-- Counting parentheses
-- ---------------------------------------------------------------------------

namespace Lexeme

/-- The number of open parentheses behind lexemes, of which `n` were open before; nothing if one is
closed that is not open. -/
def depth : Nat → List Lexeme → Option Nat
  | n, [] => some n
  | n, .word _ :: rest => depth n rest
  | n, .opening :: rest => depth (n + 1) rest
  | 0, .closing :: _ => none
  | n + 1, .closing :: rest => depth n rest

/-- The depth behind two pieces is reached by way of the depth between them. -/
theorem depth_append (n : Nat) (front back : List Lexeme) :
    depth n (front ++ back) = (depth n front).bind fun m => depth m back := by
  fun_induction depth n front with
  | case1 => rfl
  | case2 n text rest ih => exact ih
  | case3 n rest ih => exact ih
  | case4 rest => rfl
  | case5 n rest ih => exact ih

theorem depth_ofLetters (n : Nat) (letters : List Char) : depth n (ofLetters letters) = some n := by
  cases letters <;> rfl

/-- The letters before a text make no difference. -/
theorem depth_scan (n : Nat) (letters cs : List Char) :
    depth n (scan letters cs) = depth n (scan [] cs) := by
  induction cs generalizing letters with
  | nil =>
    rw [scan, scan, depth_ofLetters]
    rfl
  | cons c rest ih =>
    cases hc : boundary? c with
    | none => rw [scan_letter hc, scan_letter hc, ih, ih ([] ++ [c])]
    | some found =>
      rw [scan_boundary hc, scan_boundary hc, List.append_assoc, List.append_assoc, depth_append,
        depth_append n (ofLetters []), depth_ofLetters, depth_ofLetters]

/-- Letters that are scanned in one go or in two reach the same depth, since a word that is cut in
two has no parentheses in either part. -/
theorem depth_scan_append (n : Nat) (letters front back : List Char) :
    depth n (scan letters (front ++ back)) =
      (depth n (scan letters front)).bind fun m => depth m (scan [] back) := by
  induction front generalizing letters n with
  | nil => rw [List.nil_append, depth_scan, scan, depth_ofLetters, Option.bind_some]
  | cons c rest ih =>
    rw [List.cons_append]
    cases hc : boundary? c with
    | none => rw [scan_letter hc, scan_letter hc, ih]
    | some found =>
      rw [scan_boundary hc, scan_boundary hc, depth_append, depth_append n _ (scan [] rest),
        Option.bind_assoc]
      congr 1
      funext m
      exact ih m []

end Lexeme

/-- The depth behind two texts is reached by way of the depth between them, whether or not a word is
cut in two. -/
theorem depth_lexemes_append (n : Nat) (s t : String) :
    Lexeme.depth n (lexemes (s ++ t)) =
      (Lexeme.depth n (lexemes s)).bind fun m => Lexeme.depth m (lexemes t) := by
  rw [lexemes, String.toList_append]
  exact Lexeme.depth_scan_append n [] s.toList t.toList

/-- A text leaves `j` parentheses open in the place of `i`. -/
def Shifts (i j : Nat) (s : String) : Prop :=
  ∀ n, Lexeme.depth (n + i) (lexemes s) = some (n + j)

namespace Shifts

variable {i j k : Nat} {s t : String}

/-- What goes from depth `i` to `j` and then from `j` to `k` goes from `i` to `k`. -/
theorem append (hs : Shifts i j s) (ht : Shifts j k t) : Shifts i k (s ++ t) := by
  intro n
  rw [depth_lexemes_append, hs n, Option.bind_some, ht n]

/-- A balanced text may stand at any depth. -/
theorem lift (h : Shifts 0 0 s) (i : Nat) : Shifts i i s := fun n => h (n + i)

theorem name (h : IsUnbroken s) : Shifts 0 0 s := by
  intro n
  rw [lexemes, Lexeme.scan_letters h, Lexeme.depth_ofLetters]

/-- Balanced texts with a balanced separator between them are balanced together. -/
theorem intercalate {separator : String} {texts : List String} (i : Nat)
    (hseparator : Shifts i i separator) (htexts : ∀ s ∈ texts, Shifts i i s) :
    Shifts i i (separator.intercalate texts) := by
  induction texts with
  | nil =>
    rw [String.intercalate_nil]
    exact fun _ => rfl
  | cons s rest ih =>
    have hs := htexts s (List.mem_cons_self ..)
    have hrest := ih fun t ht => htexts t (List.mem_cons_of_mem _ ht)
    cases rest with
    | nil => simpa using hs
    | cons t rest =>
      rw [String.intercalate_cons_cons]
      exact (hs.append hseparator).append hrest

end Shifts

-- ---------------------------------------------------------------------------
-- Drafts
-- ---------------------------------------------------------------------------

/-- A digit ends no word and opens nothing. -/
theorem boundary?_eq_none_of_isDigit {c : Char} (h : c.isDigit = true) :
    Lexeme.boundary? c = none := by
  unfold Lexeme.boundary?
  split
  · revert h
    decide
  · revert h
    decide
  · revert h
    decide
  · rfl

theorem isUnbroken_toString (n : Nat) : IsUnbroken (toString n) := fun _ hc =>
  boundary?_eq_none_of_isDigit (Text.isDigit_of_mem_toString hc)

/-- A placeholder is unbroken: a colon, a word and digits. -/
theorem isUnbroken_placeholder (n : Nat) : IsUnbroken (":" ++ Binder.name n) := by
  intro c hc
  rw [Binder.name, String.toList_append, String.toList_append] at hc
  simp only [List.mem_append] at hc
  rcases hc with hc | hc | hc
  · obtain rfl : c = ':' := by simpa using hc
    rfl
  · have hstem : IsUnbroken Binder.stem := by decide
    exact hstem c hc
  · exact isUnbroken_toString n c hc

/-- The text of a record id is unbroken, whatever numbers it has. -/
theorem RecordId.isUnbroken_text (id : RecordId) : IsUnbroken id.text := by
  -- only signs and digits are written, and neither is a boundary
  have hnumber : ∀ {n : Int} {c : Char}, c ∈ (toString n).toList → Lexeme.boundary? c = none := by
    intro n c hc
    rcases Text.mem_toString_int hc with rfl | hc
    · rfl
    · exact boundary?_eq_none_of_isDigit hc
  intro c hc
  rw [text, String.toList_append, String.toList_append, String.toList_append] at hc
  simp only [List.mem_append] at hc
  rcases hc with ((hc | hc) | hc) | hc
  · obtain rfl : c = '#' := by simpa using hc
    rfl
  · exact hnumber hc
  · obtain rfl : c = ':' := by simpa using hc
    rfl
  · exact hnumber hc

namespace Shifts

theorem number (n : Nat) : Shifts 0 0 (toString n) := name (isUnbroken_toString n)

theorem joiner {joiner : String} (h : joiner ∈ ["AND", "OR"]) :
    Shifts 0 0 (" " ++ joiner ++ " ") := by
  rcases List.mem_pair.1 h with rfl | rfl <;> exact fun _ => rfl

/-- The list of record ids between its brackets is balanced: brackets count for nothing, and ids are
unbroken. -/
theorem recordsText (ids : List RecordId) : Shifts 0 0 (recordsText ids) := by
  have hopening : Shifts 0 0 "SELECT * FROM [" := fun _ => rfl
  have hclosing : Shifts 0 0 "]" := fun _ => rfl
  have hseparator : Shifts 0 0 ", " := fun _ => rfl
  refine (hopening.append (.intercalate 0 hseparator fun s hs => ?_)).append hclosing
  obtain ⟨id, -, rfl⟩ := List.mem_map.1 hs
  exact name id.isUnbroken_text

/-- The call that follows edges is balanced, as its own parentheses match. -/
theorem edgeCall (direction : Direction) {edges : List String}
    (h : ∀ edge ∈ edges, IsUnbroken edge) : Shifts 0 0 (Traversal.edgeCall direction edges) := by
  have hdirection : Shifts 0 0 direction.name := by cases direction <;> exact fun _ => rfl
  have hopening : Shifts 0 1 "(" := fun _ => rfl
  have hclosing : Shifts 1 0 ")" := fun _ => rfl
  have hseparator : Shifts 0 0 ", " := fun _ => rfl
  have hquote : Shifts 0 0 "'" := fun _ => rfl
  have hedges : Shifts 0 0 (", ".intercalate (edges.map fun edge => "'" ++ edge ++ "'")) := by
    refine .intercalate 0 hseparator fun s hs => ?_
    obtain ⟨edge, hedge, rfl⟩ := List.mem_map.1 hs
    exact (hquote.append (name (h edge hedge))).append hquote
  exact ((hdirection.append hopening).append (hedges.lift 1)).append hclosing

variable {traversal : Option Traversal} {className : String}

/-- A traversal closes the groups that it opens around the condition of the roots: as many are
closed behind the condition as are opened in front of it. -/
theorem around (hclass : IsUnbroken className)
    (hedges : ∀ edge ∈ Traversal.names traversal, IsUnbroken edge) (grouped : Bool) :
    ∃ i, Shifts 0 i (Traversal.opening traversal className grouped) ∧
      Shifts i 0 (Traversal.closing traversal grouped) := by
  have hname := Shifts.name hclass
  unfold Traversal.opening Traversal.closing
  rcases traversal with _ | (⟨edges, direction, depth⟩ | ⟨edges, direction, maxDepth⟩)
  · have hselect : Shifts 0 0 "SELECT * FROM " := fun _ => rfl
    have hwhere : Shifts 0 0 " WHERE " := fun _ => rfl
    have hnothing : Shifts 0 0 "" := fun _ => rfl
    exact ⟨0, (hselect.append hname).append hwhere, hnothing⟩
  · have hcall : Shifts 0 0 (Traversal.edgeCall direction edges) := edgeCall direction hedges
    have hdepth : Shifts 0 0 (toString depth) := number depth.toNat
    have hmatch : Shifts 0 1 "SELECT * FROM (MATCH " := fun _ => rfl
    have hroot : Shifts 1 1 "\x7bclass: " := fun _ => rfl
    have hwhere : Shifts 1 1 ", WHERE: " := fun _ => rfl
    have hclosing : Shifts 1 1 "\x7d" := fun _ => rfl
    have hdot : Shifts 1 1 "." := fun _ => rfl
    have hwhile : Shifts 1 2 "\x7bWHILE: ($depth < " := fun _ => rfl
    have hreturn : Shifts 2 0 ")\x7d RETURN DISTINCT $pathElements)" := fun _ => rfl
    have hgroup : ∃ i, Shifts 1 i (if grouped then "" else "(") ∧
        Shifts i 1 (if grouped then "" else ")") := by
      cases grouped with
      | true => exact ⟨1, fun _ => rfl, fun _ => rfl⟩
      | false => exact ⟨2, fun _ => rfl, fun _ => rfl⟩
    obtain ⟨i, hopen, hclose⟩ := hgroup
    exact ⟨i, (((hmatch.append hroot).append (hname.lift 1)).append hwhere).append hopen,
      (((((hclose.append hclosing).append hdot).append (hcall.lift 1)).append hwhile).append
        (hdepth.lift 2)).append hreturn⟩
  -- what stands in front of the condition leaves one parenthesis open, and the closing text shuts
  -- it
  · have hcall : Shifts 0 0 (Traversal.edgeCall direction edges) := edgeCall direction hedges
    have hdepth : Shifts 0 0 (toString maxDepth) := number maxDepth.toNat
    have htraverse : Shifts 0 0 "TRAVERSE " := fun _ => rfl
    have hfrom : Shifts 0 1 " FROM (" := fun _ => rfl
    have hselect : Shifts 1 1 "SELECT * FROM " := fun _ => rfl
    have hwhere : Shifts 1 1 " WHERE " := fun _ => rfl
    have hclosing : Shifts 1 0 ") MAXDEPTH " := fun _ => rfl
    exact ⟨1, ((((htraverse.append hcall).append hfrom).append hselect).append
      (hname.lift 1)).append hwhere, hclosing.append hdepth⟩

/-- A selection without a condition is balanced in all three forms. -/
theorem text (hclass : IsUnbroken className)
    (hedges : ∀ edge ∈ Traversal.names traversal, IsUnbroken edge) (grouped : Bool) :
    Shifts 0 0 (Traversal.text traversal className none grouped) := by
  have hname := Shifts.name hclass
  have hselect : Shifts 0 0 "SELECT * FROM " := fun _ => rfl
  unfold Traversal.text
  rcases traversal with _ | (⟨edges, direction, depth⟩ | ⟨edges, direction, maxDepth⟩)
  · exact hselect.append hname
  -- piece by piece: the parentheses that a piece opens are closed by a later one
  · have hcall : Shifts 0 0 (Traversal.edgeCall direction edges) := edgeCall direction hedges
    have hdepth : Shifts 0 0 (toString depth) := number depth.toNat
    have hmatch : Shifts 0 1 "SELECT * FROM (MATCH " := fun _ => rfl
    have hopening : Shifts 0 0 "\x7bclass: " := fun _ => rfl
    have hclosing : Shifts 0 0 "\x7d" := fun _ => rfl
    have hroot : Shifts 0 0 (Traversal.rootText className none grouped) :=
      (hopening.append hname).append hclosing
    have hdot : Shifts 1 1 "." := fun _ => rfl
    have hwhile : Shifts 1 2 "\x7bWHILE: ($depth < " := fun _ => rfl
    have hreturn : Shifts 2 0 ")\x7d RETURN DISTINCT $pathElements)" := fun _ => rfl
    exact (((((hmatch.append (hroot.lift 1)).append hdot).append (hcall.lift 1)).append
      hwhile).append (hdepth.lift 2)).append hreturn
  · have hcall : Shifts 0 0 (Traversal.edgeCall direction edges) := edgeCall direction hedges
    have hdepth : Shifts 0 0 (toString maxDepth) := number maxDepth.toNat
    have htraverse : Shifts 0 0 "TRAVERSE " := fun _ => rfl
    have hfrom : Shifts 0 1 " FROM (" := fun _ => rfl
    have hclosing : Shifts 1 0 ") MAXDEPTH " := fun _ => rfl
    have hinner : Shifts 0 0 (Traversal.selectText className none) := hselect.append hname
    exact ((((htraverse.append hcall).append hfrom).append (hinner.lift 1)).append
      hclosing).append hdepth

end Shifts

namespace Draft

/-- The spelled draft makes no difference to the number of open parentheses. -/
def Closed (d : Draft) : Prop := ∀ k, Shifts 0 0 (d.spell k)

namespace Closed

/-- A fragment of text is closed if its text is balanced. -/
theorem text {s : String} (hs : Shifts 0 0 s) : Closed [.text s] := by
  intro k
  rw [spell, spell, String.append_empty]
  exact hs

/-- A literal is closed: only its placeholder is written. -/
theorem literal (value : Value) : Closed [.literal value] := by
  intro k
  rw [spell, spell, String.append_empty]
  exact Shifts.name (isUnbroken_placeholder k)

/-- Closed drafts one behind the other are closed. -/
theorem append {front back : Draft} (hfront : Closed front) (hback : Closed back) :
    Closed (front ++ back) := by
  intro k
  rw [spell_append]
  exact (hfront k).append (hback _)

/-- A draft between an opening and a closing text. -/
theorem around {front back : String} {i : Nat} {d : Draft} (hfront : Shifts 0 i front)
    (hd : Closed d) (hback : Shifts i 0 back) : Closed (.text front :: d ++ [.text back]) := by
  intro k
  rw [List.cons_append, spell, spell_append, spell, spell, String.append_empty]
  exact hfront.append (((hd k).lift i).append hback)

/-- Closed drafts with a balanced separator between them are closed. -/
theorem intercalate {separator : String} (hseparator : Shifts 0 0 separator) {drafts : List Draft}
    (hdrafts : ∀ d ∈ drafts, Closed d) : Closed ([Fragment.text separator].intercalate drafts) := by
  induction drafts with
  | nil => exact fun _ _ => rfl
  | cons d rest ih =>
    have hd := hdrafts d (List.mem_cons_self ..)
    have hrest := ih fun e he => hdrafts e (List.mem_cons_of_mem _ he)
    cases rest with
    | nil => simpa using hd
    | cons e rest =>
      rw [List.intercalate_cons_cons]
      exact (hd.append (text hseparator)).append hrest

end Closed

/-- If no name holds a parenthesis or a blank, drafts close the parentheses that they open and no
others. One case for each way in which drafts are composed. -/
theorem composes_closed : Composes IsUnbroken Closed where
  deletionTime := by decide
  -- a keyword opens nothing; a nested draft stands between the one parenthesis opened and closed
  absence property hproperty := by
    have habsence : Shifts 0 0 " IS NULL" := fun _ => rfl
    exact Closed.text ((Shifts.name hproperty).append habsence)
  parameter property operator value hproperty := by
    have hblank : Shifts 0 0 " " := fun _ => rfl
    have hkeyword : Shifts 0 0 operator.keyword := by cases operator <;> exact fun _ => rfl
    have hfront := (((Shifts.name hproperty).append hblank).append hkeyword).append hblank
    exact (Closed.text hfront).append (Closed.literal value)
  nested property operator inner hproperty hinner := by
    have hblank : Shifts 0 0 " " := fun _ => rfl
    have hopening : Shifts 0 1 " (" := fun _ => rfl
    have hkeyword : Shifts 0 0 operator.selectionKeyword := by
      cases operator <;> exact fun _ => rfl
    have hfront := (((Shifts.name hproperty).append hblank).append hkeyword).append hopening
    exact Closed.around hfront hinner fun _ => rfl
  negation body hbody := Closed.around (i := 1) (fun _ => rfl) hbody fun _ => rfl
  junction joiner hjoiner drafts hdrafts := by
    have hinner := Closed.intercalate (Shifts.joiner hjoiner) hdrafts
    exact Closed.around (i := 1) (fun _ => rfl) hinner fun _ => rfl
  records ids := Closed.text (Shifts.recordsText ids)
  named traversal className condition grouped hclass hedges hcondition := by
    cases condition with
    | none => exact Closed.text (Shifts.text hclass hedges grouped)
    | some d =>
      obtain ⟨i, hopening, hclosing⟩ := Shifts.around hclass hedges grouped
      exact Closed.around hopening (hcondition d rfl) hclosing

end Draft

/-- The draft of a selection with unbroken names is closed. -/
theorem Selection.closed_draft {s : Selection} (h : ∀ name ∈ s.names, IsUnbroken name) :
    s.draft.Closed :=
  Draft.composes_closed.selection h

-- ---------------------------------------------------------------------------
-- Reading a closed text
-- ---------------------------------------------------------------------------

namespace Lexeme

/-- Lexemes whose parentheses are in pairs. -/
inductive Balanced : List Lexeme → Prop
  | nil : Balanced []
  | word (text : String) {rest : List Lexeme} : Balanced rest → Balanced (.word text :: rest)
  | group {inner rest : List Lexeme} : Balanced inner → Balanced rest →
      Balanced (.opening :: inner ++ .closing :: rest)

/-- Lexemes that close `n` groups besides the pairs in them. -/
def Unwinds : Nat → List Lexeme → Prop
  | 0, found => Balanced found
  | n + 1, found => ∃ inner rest, found = inner ++ .closing :: rest ∧ Balanced inner ∧ Unwinds n rest

/-- A word or a group in front of lexemes that close groups. -/
theorem Unwinds.prepend (front : List Lexeme) {found : List Lexeme} {n : Nat}
    (hfront : ∀ rest, Balanced rest → Balanced (front ++ rest)) (h : Unwinds n found) :
    Unwinds n (front ++ found) := by
  cases n with
  | zero => exact hfront found h
  | succ n =>
    obtain ⟨inner, rest, rfl, hinner, hrest⟩ := h
    exact ⟨front ++ inner, rest, by rw [List.append_assoc], hfront inner hinner, hrest⟩

/-- A sequence that goes from depth `n` back to the ground unwinds: `n` closing parentheses, each
behind a balanced stretch, and a balanced rest. The induction follows the scan; an opening
parenthesis takes the first of the stretches that the induction hypothesis gives, with the closing
one behind it, for its group. -/
theorem unwinds_of_depth {n : Nat} {found : List Lexeme} (h : depth n found = some 0) :
    Unwinds n found := by
  fun_induction depth n found with
  | case1 n =>
    obtain rfl := Option.some.inj h
    exact Balanced.nil
  | case2 n text rest ih => exact (ih h).prepend [.word text] fun _ => .word text
  | case3 n rest ih =>
    obtain ⟨inner, rest', rfl, hinner, hrest⟩ := ih h
    have hgroup := hrest.prepend (.opening :: inner ++ [.closing]) (fun tail htail => by
      rw [List.append_assoc]
      exact .group hinner htail)
    rwa [List.append_assoc] at hgroup
  | case4 rest => cases h
  | case5 n rest ih => exact ⟨[], rest, rfl, .nil, ih h⟩

end Lexeme

namespace Item

/-- Balanced lexemes are read as items of their own, each group as one item with what stands inside
it. -/
theorem reads_of_balanced {found : List Lexeme} (h : Lexeme.Balanced found) :
    ∃ items, items.flatMap source = found ∧ Reads found items := by
  induction h with
  | nil => exact ⟨[], rfl, .nil⟩
  | word text _ ih =>
    obtain ⟨items, hsource, hreads⟩ := ih
    refine ⟨.word text :: items, ?_, (Reads.word text).append hreads⟩
    rw [List.flatMap_cons, hsource]
    rfl
  | @group inner rest _ _ ihinner ihrest =>
    obtain ⟨inside, hinside, hinner⟩ := ihinner
    obtain ⟨items, hsource, hrest⟩ := ihrest
    -- what follows the group is read on its own, and behind it
    have hread := hinner.group.append hrest
    rw [List.append_assoc] at hread
    refine ⟨_, ?_, hread⟩
    rw [List.flatMap_append, hsource, hinside]
    simp [source]

/-- A sequence whose parentheses match is read, and what is read is the sequence itself. -/
theorem reads_of_depth {found : List Lexeme} (h : Lexeme.depth 0 found = some 0) :
    ∃ items, items.flatMap source = found ∧ Reads found items :=
  reads_of_balanced (Lexeme.unwinds_of_depth h)

end Item

end RecordQuery
