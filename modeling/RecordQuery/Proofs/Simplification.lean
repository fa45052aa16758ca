import Mathlib.Tactic.TFAE
import RecordQuery.Proofs.Meaning

/-!
# Filters without what leaves no trace

A junction without a comparison below it has no text, and a junction of one text is that text. A
filter is simple when neither kind is in it, and every filter with a text has a simple one that is
written the same way. A simple filter shows on its face what has to be found out about others before
they are written: whether there is a text at all, and whether it is one group in parentheses.

* `Filter.simplify`, `Filter.IsSimple` — what is left of a filter, and the form that it has.
* `Filter.Collects.elim_simplify` — what is found in a filter, such as its comparisons and names, is
  found in what is left of it.
* `Filter.draft_simplify` — what is left has the draft of the filter, so its text and its literals.
* `Filter.simplify_eq_none_iff`, `Filter.leafCount_eq_zero_iff` — nothing is left of the filters
  without a comparison, and of no others.
* `Filter.rendersGrouped_eq_isJunction` — a filter takes its text for a group if a junction is left.
* `IsGroup` — a text is one group in parentheses from its first character to its last.
* `Filter.rendersGrouped_iff` — a filter tells rightly whether its text is one.
* `Filter.render_simplify` — all that is told beforehand, against the text itself.
-/

namespace RecordQuery

namespace Filter

-- ---------------------------------------------------------------------------
-- Simplification
-- ---------------------------------------------------------------------------

/-- What is left of a junction with the given members: nothing without members, and the only member
without the junction. -/
def junctionOf (join : List Filter → Filter) : List Filter → Option Filter
  | [] => none
  | [only] => some only
  | members => some (join members)

mutual

/-- The filter without the junctions that have no comparison below them, or no second member left. A
comparison stays as it is, together with a selection in it: the condition of that is a text of its
own, with a conjunct of its own. -/
def simplify : Filter → Option Filter
  | .leaf comparison => some (.leaf comparison)
  | .all children => junctionOf .all (simplifyEach children)
  | .any children => junctionOf .any (simplifyEach children)
  termination_by structural f => f

/-- What is left of the filters. -/
def simplifyEach : List Filter → List Filter
  | [] => []
  | child :: rest => (simplify child).toList ++ simplifyEach rest
  termination_by structural fs => fs

end

/-- Every junction has two members or more, at every depth. -/
inductive IsSimple : Filter → Prop
  | leaf (comparison : Comparison) : IsSimple (.leaf comparison)
  | all {first second : Filter} {rest : List Filter}
      (members : ∀ child ∈ first :: second :: rest, IsSimple child) :
      IsSimple (.all (first :: second :: rest))
  | any {first second : Filter} {rest : List Filter}
      (members : ∀ child ∈ first :: second :: rest, IsSimple child) :
      IsSimple (.any (first :: second :: rest))

/-- Whether a filter is a junction. -/
def isJunction : Filter → Bool
  | .leaf _ => false
  | .all _ => true
  | .any _ => true

variable {join : List Filter → Filter} {members children : List Filter}

/-- What is left of several filters is what is left of each, where anything is. -/
theorem simplifyEach_eq_filterMap (fs : List Filter) : simplifyEach fs = fs.filterMap simplify := by
  induction fs with
  | nil => rfl
  | cons f rest ih =>
    rw [simplifyEach, ih, List.filterMap_cons]
    cases f.simplify <;> rfl

theorem junctionOf_eq_none_iff : junctionOf join members = none ↔ members = [] := by
  rcases members with _ | ⟨first, _ | ⟨second, rest⟩⟩ <;> simp [junctionOf]

-- ---------------------------------------------------------------------------
-- What is left
-- ---------------------------------------------------------------------------

/-- A junction of simple members is simple: one member stands for itself, and none leaves
nothing. -/
theorem isSimple_of_mem_junctionOf
    (hjoin : ∀ {first second rest}, (∀ child ∈ first :: second :: rest, IsSimple child) →
      IsSimple (join (first :: second :: rest)))
    (hmembers : ∀ member ∈ members, IsSimple member) :
    ∀ g ∈ junctionOf join members, g.IsSimple := by
  intro g hg
  match members with
  | [] => cases hg
  | [only] =>
    obtain rfl := Option.some.inj hg
    exact hmembers only (List.mem_singleton_self only)
  | first :: second :: rest =>
    obtain rfl := Option.some.inj hg
    exact hjoin hmembers

/-- What is left of the members is simple if that is so for each. -/
theorem isSimple_of_mem_simplifyEach (h : ∀ child ∈ children, ∀ g ∈ child.simplify, g.IsSimple) :
    ∀ g ∈ simplifyEach children, g.IsSimple := by
  intro g hg
  rw [simplifyEach_eq_filterMap, List.mem_filterMap] at hg
  obtain ⟨child, hchild, hg⟩ := hg
  exact h child hchild g hg

/-- What is left of a filter is simple. -/
theorem isSimple_of_mem_simplify {f : Filter} : ∀ g ∈ f.simplify, g.IsSimple := by
  induction f using Filter.induction with
  | leaf comparison =>
    intro g hg
    obtain rfl := Option.some.inj hg
    exact .leaf comparison
  | all children ih => exact isSimple_of_mem_junctionOf .all (isSimple_of_mem_simplifyEach ih)
  | any children ih => exact isSimple_of_mem_junctionOf .any (isSimple_of_mem_simplifyEach ih)

section Collecting

variable {α : Type} {F : Filter → List α}

/-- What is found in the members is found in their junction, whether one member stands for itself or
not. -/
theorem elim_junctionOf (hjoin : ∀ members, F (join members) = members.flatMap F)
    (members : List Filter) : (junctionOf join members).elim [] F = members.flatMap F := by
  match members with
  | [] => rfl
  | [only] => rw [junctionOf, Option.elim_some, List.flatMap_singleton]
  | first :: second :: rest => exact hjoin _

/-- Members of which nothing is left had nothing to find. -/
theorem flatMap_simplifyEach (h : ∀ child ∈ children, child.simplify.elim [] F = F child) :
    (simplifyEach children).flatMap F = children.flatMap F := by
  induction children with
  | nil => rfl
  | cons child rest ih =>
    rw [List.flatMap_cons, ← h child (List.mem_cons_self ..),
      ← ih fun c hc => h c (List.mem_cons_of_mem _ hc), simplifyEach]
    cases child.simplify <;> simp

/-- Nothing that is found in a filter is lost. -/
theorem Collects.elim_simplify (hF : Collects F) (f : Filter) : f.simplify.elim [] F = F f := by
  induction f using Filter.induction with
  | leaf comparison => rw [simplify, Option.elim_some]
  | all children ih => rw [simplify, elim_junctionOf hF.all, flatMap_simplifyEach ih, hF.all]
  | any children ih => rw [simplify, elim_junctionOf hF.any, flatMap_simplifyEach ih, hF.any]

/-- What is found in a filter is found in what is left of it. -/
theorem Collects.eq_of_mem_simplify (hF : Collects F) {f : Filter} :
    ∀ g ∈ f.simplify, F g = F f := by
  intro g hg
  rw [← hF.elim_simplify f, hg, Option.elim_some]

end Collecting

/-- Joining what is left of the members drafts as joining the members does. -/
theorem draft_junctionOf {joiner : String}
    (hjoin : ∀ members, (join members).draft = Draft.junction joiner (draftEach members))
    (members : List Filter) :
    (junctionOf join members).bind draft = Draft.junction joiner (draftEach members) := by
  match members with
  | [] => rfl
  | [only] =>
    rw [junctionOf, Option.bind_some, draftEach, draftEach, List.append_nil]
    cases only.draft <;> rfl
  | first :: second :: rest => exact hjoin _

/-- Members of which nothing is left had no draft. -/
theorem draftEach_simplifyEach
    (h : ∀ child ∈ children, child.simplify.bind draft = child.draft) :
    draftEach (simplifyEach children) = draftEach children := by
  rw [draftEach_eq_filterMap, draftEach_eq_filterMap, simplifyEach_eq_filterMap,
    List.filterMap_filterMap]
  exact List.filterMap_congr h

/-- What is left of a filter has its draft. -/
theorem draft_simplify (f : Filter) : f.simplify.bind draft = f.draft := by
  induction f using Filter.induction with
  | leaf comparison => rw [simplify, Option.bind_some]
  | all children ih =>
    rw [simplify, draft_junctionOf (fun _ => by rw [draft]), draftEach_simplifyEach ih, draft]
  | any children ih =>
    rw [simplify, draft_junctionOf (fun _ => by rw [draft]), draftEach_simplifyEach ih, draft]

-- ---------------------------------------------------------------------------
-- What is told beforehand
-- ---------------------------------------------------------------------------

/-- Nothing is left of the members if all are empty. -/
theorem simplifyEach_eq_nil_iff
    (h : ∀ child ∈ children, child.simplify = none ↔ child.isEmpty = true) :
    simplifyEach children = [] ↔ areEmpty children = true := by
  rw [simplifyEach_eq_filterMap, List.filterMap_eq_nil_iff, areEmpty_eq_all, List.all_eq_true]
  exact forall₂_congr h

/-- Nothing is left exactly of the filters without a comparison. -/
theorem simplify_eq_none_iff {f : Filter} : f.simplify = none ↔ f.isEmpty = true := by
  induction f using Filter.induction with
  | leaf comparison => simp [simplify, isEmpty]
  | all children ih =>
    rw [simplify, junctionOf_eq_none_iff, simplifyEach_eq_nil_iff ih, isEmpty]
  | any children ih =>
    rw [simplify, junctionOf_eq_none_iff, simplifyEach_eq_nil_iff ih, isEmpty]

/-- Several filters have no comparison if all are empty. -/
theorem leafCounts_eq_zero_iff {fs : List Filter}
    (h : ∀ f ∈ fs, f.leafCount = 0 ↔ f.isEmpty = true) :
    leafCounts fs = 0 ↔ areEmpty fs = true := by
  induction fs with
  | nil => simp [leafCounts, areEmpty]
  | cons f rest ih =>
    rw [leafCounts, areEmpty, Nat.add_eq_zero_iff, Bool.and_eq_true, h f (List.mem_cons_self ..),
      ih fun g hg => h g (List.mem_cons_of_mem _ hg)]

/-- A filter has no comparison exactly if it is empty. -/
theorem leafCount_eq_zero_iff {f : Filter} : f.leafCount = 0 ↔ f.isEmpty = true := by
  induction f using Filter.induction with
  | leaf comparison => simp [leafCount, isEmpty]
  | all children ih => rw [leafCount, leafCounts_eq_zero_iff ih, isEmpty]
  | any children ih => rw [leafCount, leafCounts_eq_zero_iff ih, isEmpty]

/-- Whether a junction is grouped is told without simplifying it: it is when two of its members are
not empty, or when the only one that is not is grouped itself. -/
theorem junctionGrouped_eq_isJunction (join : List Filter → Filter)
    (hjoin : ∀ members, (join members).isJunction = true)
    (h : ∀ child ∈ children, child.rendersGrouped = child.simplify.any isJunction) :
    junctionGrouped children = (junctionOf join (simplifyEach children)).any isJunction := by
  induction children with
  | nil => rfl
  | cons child rest ih =>
    cases hempty : child.isEmpty with
    | true =>
      rw [junctionGrouped, if_pos hempty, simplifyEach, simplify_eq_none_iff.2 hempty]
      exact ih fun c hc => h c (List.mem_cons_of_mem _ hc)
    | false =>
      obtain ⟨g, hg⟩ : ∃ g, child.simplify = some g := by
        rw [← Option.ne_none_iff_exists', ne_eq, simplify_eq_none_iff, hempty]
        decide
      have hnil : simplifyEach rest = [] ↔ areEmpty rest = true :=
        simplifyEach_eq_nil_iff fun _ _ => simplify_eq_none_iff
      rw [junctionGrouped, if_neg (by rw [hempty]; decide), simplifyEach, hg]
      -- with a second member that is not empty the text has a connective, so it is grouped
      cases hall : areEmpty rest with
      | true =>
        rw [if_pos rfl, hnil.2 hall, h child (List.mem_cons_self ..), hg]
        rfl
      | false =>
        obtain ⟨second, others, hothers⟩ : ∃ second others, simplifyEach rest = second :: others :=
          List.exists_cons_of_ne_nil fun hrest => by simp [hnil.1 hrest] at hall
        rw [hothers]
        exact (hjoin _).symm

/-- The text of a filter is taken for a group exactly if a junction is left of the filter. -/
theorem rendersGrouped_eq_isJunction (f : Filter) :
    f.rendersGrouped = f.simplify.any isJunction := by
  induction f using Filter.induction with
  | leaf comparison => rfl
  | all children ih =>
    rw [rendersGrouped, simplify, junctionGrouped_eq_isJunction .all (fun _ => rfl) ih]
  | any children ih =>
    rw [rendersGrouped, simplify, junctionGrouped_eq_isJunction .any (fun _ => rfl) ih]

end Filter

-- ---------------------------------------------------------------------------
-- Texts that are groups and texts that are not
-- ---------------------------------------------------------------------------

/-- A text is one group in parentheses: between the first character and the last, parentheses are in
pairs. -/
def IsGroup (text : String) : Prop :=
  ∃ inner, text = "(" ++ inner ++ ")" ∧ Lexeme.depth 0 (lexemes inner) = some 0

theorem IsGroup.head? {text : String} (h : IsGroup text) : text.toList.head? = some '(' := by
  obtain ⟨inner, rfl, -⟩ := h
  simp

/-- The text of a comparison starts with its property. -/
theorem Operand.exists_spell_draft (operand : Operand) (property : String) (operator : Operator)
    (k : Nat) : ∃ tail, (draft operand property operator).spell k = property ++ " " ++ tail := by
  cases operand with
  -- the cases write different texts, but all of them behind the property and a blank
  | literal value =>
    rw [draft]
    split
    · refine ⟨"IS NULL", ?_⟩
      rw [Draft.spell, Draft.spell, String.append_empty, absenceText, String.append_assoc]
      rfl
    · refine ⟨operator.keyword ++ " " ++ Draft.spell k [.literal value], ?_⟩
      rw [Draft.spell]
      simp only [String.append_assoc]
  | selection s =>
    refine ⟨operator.selectionKeyword ++ " (" ++ Draft.spell k (s.draft ++ [.text ")"]), ?_⟩
    rw [draft, List.cons_append, Draft.spell]
    simp only [String.append_assoc]

/-- A comparison is no group: its text starts with its property or with the word of its negation. -/
theorem Comparison.not_isGroup {c : Comparison} (hproperty : IsUnbroken c.property) (k : Nat) :
    ¬ IsGroup (c.draft.spell k) := by
  obtain ⟨property, operator, operand, negated⟩ := c
  intro hgroup
  have hhead := hgroup.head?
  rw [draft, Draft.spell_negation] at hhead
  cases negated with
  | true => simp [negationText] at hhead
  | false =>
    obtain ⟨tail, htail⟩ := operand.exists_spell_draft property operator k
    rw [htail] at hhead
    cases hchars : property.toList with
    | nil => simp [negationText, hchars] at hhead
    | cons first rest =>
      -- a property without a boundary does not start with a parenthesis
      have hfirst : Lexeme.boundary? first = none :=
        hproperty first (by rw [hchars]; exact List.mem_cons_self ..)
      obtain rfl : first = '(' := by simpa [negationText, hchars] using hhead
      cases hfirst

namespace Filter

variable {joiner : String}

/-- Two texts or more are joined to a group. -/
theorem isGroup_junction (hjoiner : joiner ∈ ["AND", "OR"]) {first second : Draft}
    {rest : List Draft} (hclosed : ∀ d ∈ first :: second :: rest, d.Closed) (k : Nat) :
    ∀ d ∈ Draft.junction joiner (first :: second :: rest), IsGroup (d.spell k) := by
  intro d hd
  obtain rfl := Option.some.inj hd
  have hinner := Draft.Closed.intercalate (Shifts.joiner hjoiner) hclosed
  refine ⟨Draft.spell k ([Fragment.text (" " ++ joiner ++ " ")].intercalate
    (first :: second :: rest)), ?_, hinner k 0⟩
  simp [Draft.spell, Draft.spell_append, String.append_assoc]

/-- Something is left of a simple filter. -/
theorem IsSimple.isEmpty {f : Filter} (h : f.IsSimple) : f.isEmpty = false := by
  induction h with
  | leaf comparison => rw [Filter.isEmpty]
  | @all first second rest members ih =>
    rw [Filter.isEmpty, areEmpty, ih first (List.mem_cons_self ..), Bool.false_and]
  | @any first second rest members ih =>
    rw [Filter.isEmpty, areEmpty, ih first (List.mem_cons_self ..), Bool.false_and]

theorem IsSimple.exists_draft {f : Filter} (h : f.IsSimple) : ∃ d, f.draft = some d := by
  rw [← Option.ne_none_iff_exists', ne_eq, draft_eq_none_iff, h.isEmpty]
  decide

/-- Two simple filters or more, with names that no blank or parenthesis breaks, are joined to a
group. -/
theorem isGroup_of_isSimple (hjoiner : joiner ∈ ["AND", "OR"]) {first second : Filter}
    {rest : List Filter} (hsimple : ∀ child ∈ first :: second :: rest, child.IsSimple)
    (hnames : ∀ child ∈ first :: second :: rest, ∀ name ∈ child.names, IsUnbroken name) (k : Nat) :
    ∀ d ∈ Draft.junction joiner (draftEach (first :: second :: rest)), IsGroup (d.spell k) := by
  obtain ⟨c, hc⟩ := (hsimple first (List.mem_cons_self ..)).exists_draft
  obtain ⟨e, he⟩ :=
    (hsimple second (List.mem_cons_of_mem _ (List.mem_cons_self ..))).exists_draft
  have hclosed : ∀ d ∈ draftEach (first :: second :: rest), d.Closed := by
    intro d hd
    obtain ⟨child, hchild, hdraft⟩ := mem_draftEach.1 hd
    exact Draft.composes_closed.filter_and_selection.1 child (hnames child hchild) d hdraft
  rw [draftEach, draftEach, hc, he] at hclosed ⊢
  exact isGroup_junction hjoiner hclosed k

/-- A simple filter is a junction exactly if its text is one group. A junction that is left has two
members, and so a pair of parentheses around them. -/
theorem IsSimple.isJunction_iff {f : Filter} (h : f.IsSimple)
    (hnames : ∀ name ∈ f.names, IsUnbroken name) (k : Nat) :
    ∀ d ∈ f.draft, (f.isJunction = true ↔ IsGroup (d.spell k)) := by
  intro d hd
  -- a leaf is no group and a junction of two members is one
  cases h with
  | leaf comparison =>
    rw [draft] at hd
    obtain rfl := Option.some.inj hd
    have hproperty : IsUnbroken comparison.property := by
      obtain ⟨property, operator, operand, negated⟩ := comparison
      rw [names, Comparison.names] at hnames
      exact hnames property (List.mem_cons_self ..)
    exact iff_of_false Bool.false_ne_true (Comparison.not_isGroup hproperty k)
  | all members =>
    rw [draft] at hd
    have hgroup := isGroup_of_isSimple (by simp) members
      (fun child hchild name hname => hnames name (mem_names_all.2 ⟨child, hchild, hname⟩)) k d hd
    exact iff_of_true rfl hgroup
  | any members =>
    rw [draft] at hd
    have hgroup := isGroup_of_isSimple (by simp) members
      (fun child hchild name hname => hnames name (mem_names_any.2 ⟨child, hchild, hname⟩)) k d hd
    exact iff_of_true rfl hgroup

/-- A filter tells rightly whether its text is one group. -/
theorem rendersGrouped_iff {f : Filter} (hnames : ∀ name ∈ f.names, IsUnbroken name) (k : Nat) :
    ∀ d ∈ f.draft, (f.rendersGrouped = true ↔ IsGroup (d.spell k)) := by
  intro d hd
  rw [← draft_simplify] at hd
  obtain ⟨g, hg, hdraft⟩ := Option.bind_eq_some_iff.1 hd
  rw [← collects_names.eq_of_mem_simplify g hg] at hnames
  rw [rendersGrouped_eq_isJunction, hg, Option.any_some]
  exact (isSimple_of_mem_simplify g hg).isJunction_iff hnames k d hdraft

-- ---------------------------------------------------------------------------
-- The text
-- ---------------------------------------------------------------------------

/-- What is left of a filter is written like the filter, at every state of the binder, and binds the
same literals. -/
theorem render_eq_elim_simplify (f : Filter) (b : Binder) :
    f.render b = f.simplify.elim (none, b) fun g => g.render b := by
  have hdraft := draft_simplify f
  rw [render_eq_draft, literals, ← hdraft]
  cases f.simplify with
  | none => rfl
  | some g => rw [Option.bind_some, Option.elim_some, render_eq_draft, literals]

/-- What is told of the text of a filter beforehand is so, at every state of the binder. What is
left of the filter is simple, has the same comparisons, is written the same way and binds the same.
There is no text, and nothing is bound, exactly if there is no comparison, whichever way that is
found out, and exactly if nothing is left. The text is told to be a group exactly if a junction is
left, and, where no blank or parenthesis breaks a name, exactly if it is one. -/
theorem render_simplify (f : Filter) (b : Binder) :
    (∀ g ∈ f.simplify, g.IsSimple ∧ g.comparisons = f.comparisons) ∧
      f.render b = f.simplify.elim (none, b) (fun g => g.render b) ∧
      [(f.render b).1 = none, f.render b = (none, b), f.isEmpty = true, f.leafCount = 0,
        f.simplify = none].TFAE ∧
      f.rendersGrouped = f.simplify.any isJunction ∧
      ((∀ name ∈ f.names, IsUnbroken name) →
        (f.rendersGrouped = true ↔ ∃ text ∈ (f.render b).1, IsGroup text)) := by
  have hrender := render_eq_elim_simplify f b
  have hleft : ∀ g ∈ f.simplify, g.IsSimple ∧ g.comparisons = f.comparisons := fun g hg =>
    ⟨isSimple_of_mem_simplify g hg, collects_comparisons.eq_of_mem_simplify g hg⟩
  refine ⟨hleft, hrender, ?_, rendersGrouped_eq_isJunction f, fun hnames => ?_⟩
  · tfae_have 1 ↔ 3 := render_fst_eq_none_iff
    tfae_have 2 → 1 := fun h => by rw [h]
    tfae_have 5 → 2 := fun h => by rw [hrender, h, Option.elim_none]
    tfae_have 3 ↔ 4 := leafCount_eq_zero_iff.symm
    tfae_have 3 ↔ 5 := simplify_eq_none_iff.symm
    tfae_finish
  · have hgroup := rendersGrouped_iff hnames b.next
    -- an unbroken name leaves the parentheses of the text to the junctions
    rw [render_eq_draft]
    cases hdraft : f.draft with
    | none =>
      have hsimple := simplify_eq_none_iff.2 (draft_eq_none_iff.1 hdraft)
      rw [rendersGrouped_eq_isJunction, hsimple]
      simp
    | some d => simpa using hgroup d hdraft

/-- A group below junctions of one member and beside junctions of nothing. One of its comparisons is
negated, one holds a selection, and one a literal with parentheses. -/
def nestedGroup : Filter :=
  .all [.any [.all []], .any [.all [.any [
    .leaf ⟨"nickname", .equal, .literal .null, true⟩, .all [.any [], .all []],
    .all [.leaf ⟨"friends", .containsAny, .selection (.ofClass "Person" none true), false⟩],
    .leaf ⟨"name", .equal, .literal (.string ") OR ("), false⟩]], .any []]]

/-- The spanning group is found below junctions of one member, and the parentheses of the literal do
not count. -/
theorem render_simplify_nestedGroup :
    (∀ name ∈ nestedGroup.names, IsUnbroken name) ∧
      nestedGroup.simplify = some (.any (nestedGroup.comparisons.map .leaf)) ∧
      (nestedGroup.render (Binder.startingAt 7)).2.next = 8 ∧
      (nestedGroup.render (Binder.startingAt 7)).1 =
        some ("(NOT (nickname IS NULL) OR friends CONTAINSANY (SELECT * FROM Person) OR " ++
          "name = :param7)") ∧
      ∃ text ∈ (nestedGroup.render (Binder.startingAt 7)).1, IsGroup text := by
  have hnames : ∀ name ∈ nestedGroup.names, IsUnbroken name := by decide
  obtain ⟨-, -, -, hjunction, hgroup⟩ := render_simplify nestedGroup (Binder.startingAt 7)
  have hgrouped : nestedGroup.rendersGrouped = true := by rw [hjunction]; rfl
  exact ⟨hnames, rfl, rfl, by decide +kernel, (hgroup hnames).1 hgrouped⟩

end Filter

end RecordQuery
