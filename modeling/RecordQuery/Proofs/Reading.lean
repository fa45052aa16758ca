import Mathlib.Data.List.Forall2
import RecordQuery.Selection.Render
import RecordQuery.Text.Split

/-!
# Reading the text of a condition

Rendering puts parentheses where it takes them to be needed. Whether they stand in the right places
shows when the text is read again by somebody who knows the usual precedence and nothing of filters:
a negation binds closest, then `AND`, then `OR`, and parentheses override.

* `lexemes` cuts a text into words and parentheses.
* `Item.step` reads them one after another on a stack of open groups. When a group closes, what it
  holds is read as a condition if it is one, and kept as it is if not: the text of a nested selection
  is a group that nobody looks into.
* `Condition.expression?` reads the items of a group: pieces between `OR`, in them pieces between
  `AND`, and each of these is a comparison, a group or a negation of one.
* `Condition.holds` is the truth of a condition under truth values for its comparisons, in the order
  of the text.

Reading a text that is put together is reading its parts: `lexemes_blank`, `Item.run_append`,
`Condition.joined_intercalate`.
-/

namespace RecordQuery

-- ---------------------------------------------------------------------------
-- Words and parentheses
-- ---------------------------------------------------------------------------

/-- A word or a parenthesis. -/
inductive Lexeme where
  | word (text : String)
  | opening
  | closing
  deriving DecidableEq, Repr

namespace Lexeme

/-- What a character that ends a word stands for. -/
def boundary? : Char → Option (List Lexeme)
  | ' ' => some []
  | '(' => some [.opening]
  | ')' => some [.closing]
  | _ => none

/-- The word of letters, if there are any. -/
def ofLetters : List Char → List Lexeme
  | [] => []
  | letters => [.word (String.ofList letters)]

/-- The lexemes of a text behind the letters of a word. -/
def scan (letters : List Char) : List Char → List Lexeme
  | [] => ofLetters letters
  | c :: rest =>
    match boundary? c with
    | some found => ofLetters letters ++ found ++ scan [] rest
    | none => scan (letters ++ [c]) rest

end Lexeme

/-- The words and parentheses of a text. -/
def lexemes (text : String) : List Lexeme := Lexeme.scan [] text.toList

/-- No character of a text ends a word. -/
def IsUnbroken (s : String) : Prop := ∀ c ∈ s.toList, Lexeme.boundary? c = none

instance (s : String) : Decidable (IsUnbroken s) :=
  decidable_of_iff (s.toList.all fun c => (Lexeme.boundary? c).isNone) (by simp [IsUnbroken])

/-- A text is one word. -/
def IsWord (s : String) : Prop := s.toList ≠ [] ∧ IsUnbroken s

instance (s : String) : Decidable (IsWord s) := inferInstanceAs (Decidable (_ ∧ _))

namespace Lexeme

/-- A boundary ends the word before it. -/
theorem scan_boundary {c : Char} {found : List Lexeme} (hc : boundary? c = some found)
    (letters rest : List Char) :
    scan letters (c :: rest) = ofLetters letters ++ found ++ scan [] rest := by
  rw [scan, hc]

theorem scan_letter {c : Char} (hc : boundary? c = none) (letters rest : List Char) :
    scan letters (c :: rest) = scan (letters ++ [c]) rest := by
  rw [scan, hc]

/-- A boundary ends the word before it, and the text goes on behind it. -/
theorem scan_append {c : Char} {found : List Lexeme} (hc : boundary? c = some found)
    (letters front back : List Char) :
    scan letters (front ++ c :: back) = scan letters front ++ found ++ scan [] back := by
  induction front generalizing letters with
  | nil => exact scan_boundary hc letters back
  | cons d rest ih =>
    rw [List.cons_append]
    cases hd : boundary? d with
    | none => rw [scan_letter hd, scan_letter hd, ih]
    | some other =>
      rw [scan_boundary hd, scan_boundary hd, ih]
      simp only [List.append_assoc]

/-- Without a boundary there is one word at most. -/
theorem scan_letters {cs : List Char} (hcs : ∀ c ∈ cs, boundary? c = none) (letters : List Char) :
    scan letters cs = ofLetters (letters ++ cs) := by
  induction cs generalizing letters with
  | nil => rw [scan, List.append_nil]
  | cons c rest ih =>
    rw [scan_letter (hcs c (List.mem_cons_self ..)), ih fun d hd => hcs d (List.mem_cons_of_mem _ hd),
      List.append_assoc, List.singleton_append]

end Lexeme

/-- A text that is one word is read as that word. -/
theorem lexemes_word {s : String} (hs : IsWord s) : lexemes s = [.word s] := by
  obtain ⟨hne, hletters⟩ := hs
  rw [lexemes, Lexeme.scan_letters hletters, List.nil_append, Lexeme.ofLetters]
  · rw [String.ofList_toList]
  · exact hne

/-- A blank cuts a text in two. -/
theorem lexemes_blank (s t : String) : lexemes (s ++ " " ++ t) = lexemes s ++ lexemes t := by
  have hchars : (s ++ " " ++ t).toList = s.toList ++ ' ' :: t.toList := by simp
  rw [lexemes, hchars, Lexeme.scan_append (c := ' ') rfl, List.append_nil]
  rfl

/-- A text in parentheses behind another. -/
theorem lexemes_group (s t : String) :
    lexemes (s ++ "(" ++ t ++ ")") = lexemes s ++ .opening :: lexemes t ++ [.closing] := by
  have hchars : (s ++ "(" ++ t ++ ")").toList = s.toList ++ '(' :: (t.toList ++ ')' :: []) := by simp
  rw [lexemes, hchars, Lexeme.scan_append (c := '(') rfl, Lexeme.scan_append (c := ')') rfl]
  simp [lexemes, Lexeme.scan, Lexeme.ofLetters]

/-- A text in parentheses is read as its lexemes between the two parentheses. -/
theorem lexemes_parentheses (s : String) :
    lexemes ("(" ++ s ++ ")") = .opening :: lexemes s ++ [.closing] := by
  have hgroup := lexemes_group "" s
  rwa [String.empty_append] at hgroup

/-- Texts between connectives are cut one by one, with the connective as a word between them, for it
stands between blanks. -/
theorem lexemes_intercalate {connective : String} (hword : IsWord connective) (texts : List String) :
    lexemes ((" " ++ connective ++ " ").intercalate texts) =
      [Lexeme.word connective].intercalate (texts.map lexemes) := by
  induction texts with
  | nil => rfl
  | cons s rest ih =>
    cases rest with
    | nil => simp
    | cons t rest =>
      have hsplit : s ++ (" " ++ connective ++ " ") ++
          (" " ++ connective ++ " ").intercalate (t :: rest) =
          s ++ " " ++ (connective ++ " " ++ (" " ++ connective ++ " ").intercalate (t :: rest)) := by
        simp only [String.append_assoc]
      rw [String.intercalate_cons_cons, hsplit, lexemes_blank, lexemes_blank, lexemes_word hword, ih]
      simp only [List.map_cons, List.intercalate_cons_cons, List.append_assoc]

-- ---------------------------------------------------------------------------
-- Conditions
-- ---------------------------------------------------------------------------

/-- A condition that was read. A comparison keeps the lexemes that it was read from. -/
inductive Condition where
  | comparison (source : List Lexeme)
  | negation (inner : Condition)
  | both (left right : Condition)
  | either (left right : Condition)
  deriving DecidableEq, Repr

namespace Condition

/-- The comparisons from left to right. -/
def comparisons : Condition → List (List Lexeme)
  | .comparison source => [source]
  | .negation inner => inner.comparisons
  | .both left right => left.comparisons ++ right.comparisons
  | .either left right => left.comparisons ++ right.comparisons

/-- Whether a condition is true if its comparisons have the truth values from number `n` on. -/
def holds (truth : Nat → Bool) (n : Nat) : Condition → Bool
  | .comparison _ => truth n
  | .negation inner => !holds truth n inner
  | .both left right => holds truth n left && holds truth (n + left.comparisons.length) right
  | .either left right => holds truth n left || holds truth (n + left.comparisons.length) right

end Condition

-- ---------------------------------------------------------------------------
-- Groups
-- ---------------------------------------------------------------------------

/-- A word, or a group in parentheses with the condition that it is read as. -/
inductive Item where
  | word (text : String)
  | group (source : List Lexeme) (condition : Option Condition)
  deriving DecidableEq, Repr

namespace Item

/-- The lexemes that an item was read from. -/
def source : Item → List Lexeme
  | .word text => [.word text]
  | .group source _ => .opening :: source ++ [.closing]

/-- Whether an item is a certain word. -/
def isWord (text : String) : Item → Bool
  | .word found => found = text
  | .group _ _ => false

end Item

namespace Condition

/-- The keywords that join conditions. -/
def connectives : List String := ["AND", "OR", "NOT"]

/-- The keywords that compare a property with an operand. -/
def operatorKeywords : List String :=
  ["=", "<", "<=", ">", ">=", "IN", "CONTAINS", "CONTAINSALL", "CONTAINSANY", "CONTAINSTEXT"]

/-- Whether a word names a parameter. -/
def isParameter (text : String) : Bool := text.toList.head? = some ':'

/-- A comparison: a property that is absent, or one that is compared with a parameter or a group. -/
def comparison? : List Item → Option Condition
  | [.word property, .word operator, .word operand] =>
    if operator = "IS" ∧ operand = "NULL" ∨ operator ∈ operatorKeywords ∧ isParameter operand then
      some (.comparison [.word property, .word operator, .word operand])
    else none
  | [.word property, .word operator, .group source condition] =>
    if operator ∈ operatorKeywords then
      some (.comparison (.word property :: .word operator :: (Item.group source condition).source))
    else none
  | _ => none

/-- A negation, a group or a comparison. -/
def factor? : List Item → Option Condition
  | .word text :: rest =>
    if text = "NOT" then (factor? rest).map .negation else comparison? (.word text :: rest)
  | [.group _ condition] => condition
  | _ => none

/-- The pieces between the occurrences of a connective, each read for itself, as one condition. -/
def joined (connective : String) (join : Condition → Condition → Condition)
    (piece? : List Item → Option Condition) (items : List Item) : Option Condition :=
  match (items.splitOnP (Item.isWord connective)).mapM piece? with
  | some (first :: rest) => some (rest.foldl join first)
  | _ => none

/-- Factors between `AND`. -/
def term? : List Item → Option Condition := joined "AND" .both factor?

/-- Terms between `OR`. -/
def expression? : List Item → Option Condition := joined "OR" .either term?

end Condition

namespace Item

/-- Reads one lexeme; the first of the open groups is the innermost. -/
def step : Lexeme → List (List Item) → Option (List (List Item))
  | .word text, level :: below => some ((level ++ [.word text]) :: below)
  | .opening, level :: below => some ([] :: level :: below)
  | .closing, inner :: level :: below =>
    some ((level ++ [.group (inner.flatMap source) (Condition.expression? inner)]) :: below)
  | _, _ => none

/-- Reads lexemes one after another. -/
def run : List Lexeme → List (List Item) → Option (List (List Item))
  | [], levels => some levels
  | lexeme :: rest, levels => (step lexeme levels).bind (run rest)

/-- Lexemes are read from the state that those before them have led to. -/
theorem run_append (front back : List Lexeme) (levels : List (List Item)) :
    run (front ++ back) levels = (run front levels).bind (run back) := by
  induction front generalizing levels with
  | nil => rfl
  | cons lexeme rest ih =>
    rw [List.cons_append, run, run, Option.bind_assoc]
    congr 1
    funext next
    exact ih next

end Item

/-- The condition of a text. -/
def Condition.read? (text : String) : Option Condition :=
  match Item.run (lexemes text) [[]] with
  | some [items] => Condition.expression? items
  | _ => none

/-- A negation binds closest, then `AND`, then `OR`. -/
example : Condition.read? "a = :p OR NOT b IS NULL AND c IN (SELECT * FROM C)" =
    some (.either (.comparison [.word "a", .word "=", .word ":p"])
      (.both (.negation (.comparison [.word "b", .word "IS", .word "NULL"]))
        (.comparison [.word "c", .word "IN", .opening, .word "SELECT", .word "*", .word "FROM",
          .word "C", .closing]))) := by decide

-- ---------------------------------------------------------------------------
-- Reading what was put together
-- ---------------------------------------------------------------------------

/-- Reading lexemes adds items to the innermost group. -/
def Item.Reads (found : List Lexeme) (items : List Item) : Prop :=
  ∀ level below, Item.run found (level :: below) = some ((level ++ items) :: below)

namespace Item.Reads

variable {found front back : List Lexeme} {items left right : List Item}

theorem nil : Reads [] [] := by
  intro level below
  rw [run, List.append_nil]

theorem word (text : String) : Reads [.word text] [.word text] := fun _ _ => rfl

/-- What stands one after the other is read one after the other. -/
theorem append (hfront : Reads front left) (hback : Reads back right) :
    Reads (front ++ back) (left ++ right) := by
  intro level below
  rw [run_append, hfront, Option.bind_some, hback, List.append_assoc]

/-- A group is read as the condition of its items. -/
theorem group (h : Reads found items) :
    Reads (.opening :: found ++ [.closing])
      [.group (items.flatMap source) (Condition.expression? items)] := by
  intro level below
  rw [List.cons_append, run, step, Option.bind_some, run_append, h, Option.bind_some,
    List.nil_append]
  rfl

/-- Pieces with a connective between them are read with the connective between their items. -/
theorem intercalate (connective : String) {texts : List (List Lexeme)} {pieces : List (List Item)}
    (h : List.Forall₂ Reads texts pieces) :
    Reads ([.word connective].intercalate texts) ([.word connective].intercalate pieces) := by
  induction h with
  | nil => exact nil
  | @cons text piece texts pieces hfirst hrest ih =>
    cases hrest with
    | nil => simpa using hfirst
    | cons hsecond hrest =>
      rw [List.intercalate_cons_cons, List.intercalate_cons_cons]
      exact (hfirst.append (word connective)).append ih

end Item.Reads

namespace Condition

theorem read?_eq {text : String} {items : List Item} (h : Item.Reads (lexemes text) items) :
    read? text = expression? items := by
  rw [read?, h, List.nil_append]

/-- Pieces that do not have the connective in them are found again between its occurrences. -/
theorem splitOnP_intercalate {connective : String} {first : List Item} {rest : List (List Item)}
    (h : ∀ piece ∈ first :: rest, ∀ item ∈ piece, item.isWord connective = false) :
    ([Item.word connective].intercalate (first :: rest)).splitOnP (Item.isWord connective) =
      first :: rest := by
  induction rest generalizing first with
  | nil =>
    rw [List.intercalate_singleton]
    exact List.splitOnP_eq_singleton (h first (List.mem_cons_self ..))
  | cons second rest ih =>
    have hconnective : (Item.word connective).isWord connective = true := by simp [Item.isWord]
    rw [List.intercalate_cons_cons, List.append_assoc, List.singleton_append,
      List.splitOnP_append_cons_of_forall_mem (h first (List.mem_cons_self ..)) _ hconnective,
      ih fun piece hpiece => h piece (List.mem_cons_of_mem _ hpiece)]

/-- Pieces that are all read are read together. -/
theorem mapM_eq_some {piece? : List Item → Option Condition} {pieces : List (List Item)}
    {conditions : List Condition}
    (h : List.Forall₂ (fun items e => piece? items = some e) pieces conditions) :
    pieces.mapM piece? = some conditions := by
  induction h with
  | nil => rfl
  | cons hfirst _ ih =>
    rw [List.mapM_cons, hfirst, ih]
    rfl

/-- Pieces between connectives are read one by one. -/
theorem joined_intercalate {connective : String} {join : Condition → Condition → Condition}
    {piece? : List Item → Option Condition} {pieces : List (List Item)} {first : Condition}
    {rest : List Condition}
    (hwords : ∀ piece ∈ pieces, ∀ item ∈ piece, item.isWord connective = false)
    (hread : List.Forall₂ (fun items e => piece? items = some e) pieces (first :: rest)) :
    joined connective join piece? ([Item.word connective].intercalate pieces) =
      some (rest.foldl join first) := by
  cases pieces with
  | nil => cases hread
  | cons piece pieces => rw [joined, splitOnP_intercalate hwords, mapM_eq_some hread]

/-- Without a connective the whole is one piece and is read as such. -/
theorem joined_eq_some {connective : String} {join : Condition → Condition → Condition}
    {piece? : List Item → Option Condition} {items : List Item} {e : Condition}
    (hwords : ∀ item ∈ items, item.isWord connective = false) (hread : piece? items = some e) :
    joined connective join piece? items = some e := by
  rw [joined, List.splitOnP_eq_singleton hwords, List.mapM_cons, hread]
  rfl

/-- Items that are a factor of their own wherever they stand. -/
structure IsFactor (items : List Item) (e : Condition) : Prop where
  factor : factor? items = some e
  and_free : ∀ item ∈ items, item.isWord "AND" = false
  or_free : ∀ item ∈ items, item.isWord "OR" = false

namespace IsFactor

variable {items : List Item} {e first : Condition} {rest : List Condition}
  {pieces : List (List Item)}

theorem term (h : IsFactor items e) : term? items = some e := joined_eq_some h.and_free h.factor

theorem expression (h : IsFactor items e) : expression? items = some e :=
  joined_eq_some h.or_free h.term

/-- A condition in parentheses is a factor. -/
theorem group (source : List Lexeme) (e : Condition) : IsFactor [.group source (some e)] e where
  factor := rfl
  and_free := by simp [Item.isWord]
  or_free := by simp [Item.isWord]

/-- The negation of a factor is a factor. -/
theorem negation (h : IsFactor items e) : IsFactor (.word "NOT" :: items) (.negation e) where
  factor := by rw [factor?, if_pos rfl, h.factor, Option.map_some]
  and_free := by
    intro item hitem
    rcases List.mem_cons.1 hitem with rfl | hitem
    · rfl
    · exact h.and_free item hitem
  or_free := by
    intro item hitem
    rcases List.mem_cons.1 hitem with rfl | hitem
    · rfl
    · exact h.or_free item hitem

/-- Of factors between connectives, what holds of all of them holds of every piece. -/
theorem of_forall₂ {conditions : List Condition} (h : List.Forall₂ IsFactor pieces conditions) :
    ∀ piece ∈ pieces, ∃ e, IsFactor piece e := by
  induction h with
  | nil => simp
  | cons hfirst _ ih =>
    intro piece hpiece
    rcases List.mem_cons.1 hpiece with rfl | hpiece
    · exact ⟨_, hfirst⟩
    · exact ih piece hpiece

/-- Factors between `AND` are their conjunction. -/
theorem conjunction (h : List.Forall₂ IsFactor pieces (first :: rest)) :
    expression? ([.word "AND"].intercalate pieces) = some (rest.foldl .both first) := by
  apply joined_eq_some
  · intro item hitem
    rcases Text.mem_intercalate hitem with rfl | ⟨piece, hpiece, hitem⟩
    · rfl
    · obtain ⟨e, he⟩ := of_forall₂ h piece hpiece
      exact he.or_free item hitem
  · apply joined_intercalate
    · intro piece hpiece
      obtain ⟨e, he⟩ := of_forall₂ h piece hpiece
      exact he.and_free
    · exact h.imp fun _ _ he => he.factor

/-- Factors between `OR` are their disjunction. -/
theorem disjunction (h : List.Forall₂ IsFactor pieces (first :: rest)) :
    expression? ([.word "OR"].intercalate pieces) = some (rest.foldl .either first) := by
  apply joined_intercalate
  · intro piece hpiece
    obtain ⟨e, he⟩ := of_forall₂ h piece hpiece
    exact he.or_free
  · exact h.imp fun _ _ he => he.term

end IsFactor

/-- A junction of texts that are factors is a factor: a single text stands for itself, and several
are one group whose inside is read with the connective. -/
theorem exists_factor_of_junction {connective : String} {join : Condition → Condition → Condition}
    (hword : IsWord connective)
    (hjoin : ∀ {pieces first rest}, List.Forall₂ IsFactor pieces (first :: rest) →
      expression? ([.word connective].intercalate pieces) = some (rest.foldl join first))
    {texts : List String} {text : String} {pieces : List (List Item)} {conditions : List Condition}
    (htext : junctionText connective texts = some text)
    (hreads : List.Forall₂ Item.Reads (texts.map lexemes) pieces)
    (hfactors : List.Forall₂ IsFactor pieces conditions) :
    ∃ first rest items, conditions = first :: rest ∧ Item.Reads (lexemes text) items ∧
      IsFactor items (rest.foldl join first) := by
  -- one text stands for itself, several are put in parentheses
  match texts with
  | [] => cases htext
  | [only] =>
    obtain rfl := Option.some.inj htext
    obtain ⟨items, _, hitems, hnone, rfl⟩ := List.forall₂_cons_left_iff.1 hreads
    cases hnone
    obtain ⟨e, _, he, hnone, rfl⟩ := List.forall₂_cons_left_iff.1 hfactors
    cases hnone
    exact ⟨e, [], items, rfl, hitems, he⟩
  | one :: two :: others =>
    obtain rfl := Option.some.inj htext
    cases hfactors with
    | nil => cases hreads
    | @cons items first pieces rest hfirst hrest =>
      have hinner := Item.Reads.intercalate connective hreads
      rw [← lexemes_intercalate hword] at hinner
      have hgroup := hinner.group
      rw [hjoin (.cons hfirst hrest)] at hgroup
      rw [← lexemes_parentheses] at hgroup
      exact ⟨first, rest, _, rfl, hgroup, IsFactor.group _ _⟩

-- ---------------------------------------------------------------------------
-- The truth of joined conditions
-- ---------------------------------------------------------------------------

/-- Whether all conditions are true, numbered through. -/
def allHold (truth : Nat → Bool) (n : Nat) : List Condition → Bool
  | [] => true
  | e :: rest => holds truth n e && allHold truth (n + e.comparisons.length) rest

/-- Whether one of the conditions is true, numbered through. -/
def anyHolds (truth : Nat → Bool) (n : Nat) : List Condition → Bool
  | [] => false
  | e :: rest => holds truth n e || anyHolds truth (n + e.comparisons.length) rest

variable (truth : Nat → Bool) (n : Nat) (first : Condition) (rest : List Condition)

/-- The comparisons of a conjunction are those of its members, in their order. -/
theorem comparisons_foldl_both :
    (rest.foldl .both first).comparisons = first.comparisons ++ rest.flatMap comparisons := by
  induction rest generalizing first with
  | nil => simp
  | cons second rest ih =>
    rw [List.foldl_cons, ih, comparisons, List.flatMap_cons, List.append_assoc]

/-- The comparisons of a disjunction are those of its members, in their order. -/
theorem comparisons_foldl_either :
    (rest.foldl .either first).comparisons = first.comparisons ++ rest.flatMap comparisons := by
  induction rest generalizing first with
  | nil => simp
  | cons second rest ih =>
    rw [List.foldl_cons, ih, comparisons, List.flatMap_cons, List.append_assoc]

/-- A conjunction of several conditions is true when all of them are. -/
theorem holds_foldl_both :
    holds truth n (rest.foldl .both first) = allHold truth n (first :: rest) := by
  induction rest generalizing first with
  | nil => simp [allHold]
  | cons second rest ih =>
    rw [List.foldl_cons, ih, allHold, allHold, allHold, holds, comparisons, List.length_append,
      Bool.and_assoc, Nat.add_assoc]

/-- A disjunction of several conditions is true when one of them is. -/
theorem holds_foldl_either :
    holds truth n (rest.foldl .either first) = anyHolds truth n (first :: rest) := by
  induction rest generalizing first with
  | nil => simp [anyHolds]
  | cons second rest ih =>
    rw [List.foldl_cons, ih, anyHolds, anyHolds, anyHolds, holds, comparisons, List.length_append,
      Bool.or_assoc, Nat.add_assoc]

end Condition

end RecordQuery
