import Mathlib.Data.List.Induction
import RecordQuery.Proofs.Induction
import RecordQuery.Selection.Render

/-!
# Drafts: the text of a selection before placeholders are numbered

Rendering hands one binder through a whole tree, so what it writes at one place depends on how many
literals stood before. A *draft* is the same text with the literals still in it, and needs no
binder: `Draft.spell` numbers its placeholders from any number on, and `Draft.literals` lists what
they are bound to.

* `Filter.render_eq_draft`, `Selection.render_eq_draft` — rendering spells the draft from the next
  number of the binder and binds its literals in order. What is proved of drafts is thereby proved
  of rendered texts, at every state of the binder.
* `Draft.spell_append`, `Binder.bindAll_append` — the two parts of a draft are numbered one after
  the other.
* `Binder.find?_bindAll`, `Binder.params_bindAll_perm` — which names are bound, and to what.
-/

namespace RecordQuery

/-- A piece of a draft. -/
inductive Fragment where
  /-- Text that stands in the statement as it is. -/
  | text (s : String)
  /-- A literal, for which a placeholder will stand. -/
  | literal (value : Value)

/-- A text with the literals in it. -/
abbrev Draft := List Fragment

namespace Draft

/-- The literals, from left to right. -/
def literals : Draft → List Value
  | [] => []
  | .text _ :: rest => literals rest
  | .literal value :: rest => value :: literals rest

/-- The text with placeholders that are numbered from `n` on. -/
def spell (n : Nat) : Draft → String
  | [] => ""
  | .text s :: rest => s ++ spell n rest
  | .literal _ :: rest => ":" ++ Binder.name n ++ spell (n + 1) rest

/-- The draft of a junction of drafts. -/
def junction (joiner : String) : List Draft → Option Draft
  | [] => none
  | [draft] => some draft
  | drafts =>
    some (.text "(" :: [Fragment.text (" " ++ joiner ++ " ")].intercalate drafts ++ [.text ")"])

/-- The draft of a comparison under a negation. -/
def negation (negated : Bool) (body : Draft) : Draft :=
  if negated then .text "NOT (" :: body ++ [.text ")"] else body

/-- The literals of two drafts, one behind the other. -/
theorem literals_append (front back : Draft) :
    literals (front ++ back) = literals front ++ literals back := by
  induction front with
  | nil => rfl
  | cons fragment rest ih => cases fragment <;> simp [literals, ih]

/-- The second of two drafts is numbered behind the literals of the first. -/
theorem spell_append (n : Nat) (front back : Draft) :
    spell n (front ++ back) = spell n front ++ spell (n + (literals front).length) back := by
  induction front generalizing n with
  | nil => simp [spell, literals]
  | cons fragment rest ih =>
    cases fragment with
    | text s => simp [spell, literals, ih, String.append_assoc]
    | literal value =>
      have hnext : n + 1 + (literals rest).length = n + ((literals rest).length + 1) := by omega
      simp [spell, literals, ih, String.append_assoc, hnext]

theorem literals_negation (negated : Bool) (body : Draft) :
    literals (negation negated body) = literals body := by
  cases negated <;> simp [negation, literals, literals_append]

/-- A negated draft is spelled as a negated text. -/
theorem spell_negation (n : Nat) (negated : Bool) (body : Draft) :
    spell n (negation negated body) = negationText negated (spell n body) := by
  cases negated with
  | false => simp [negation, negationText]
  | true => simp [negation, negationText, spell, spell_append, String.append_assoc]

-- ---------------------------------------------------------------------------
-- Several drafts
-- ---------------------------------------------------------------------------

/-- The texts of several drafts, numbered through. -/
def spellEach (n : Nat) : List Draft → List String
  | [] => []
  | draft :: rest => spell n draft :: spellEach (n + (literals draft).length) rest

/-- Drafts behind others are numbered behind the literals of those. -/
theorem spellEach_append (n : Nat) (front back : List Draft) :
    spellEach n (front ++ back) =
      spellEach n front ++ spellEach (n + (front.flatMap literals).length) back := by
  induction front generalizing n with
  | nil => simp [spellEach]
  | cons draft rest ih => simp [spellEach, ih, Nat.add_assoc]

/-- Each draft has one text. -/
theorem length_spellEach (n : Nat) (drafts : List Draft) :
    (spellEach n drafts).length = drafts.length := by
  induction drafts generalizing n with
  | nil => rfl
  | cons draft rest ih => rw [spellEach, List.length_cons, ih, List.length_cons]

/-- A separator of text adds no literals. -/
theorem literals_intercalate (separator : String) (drafts : List Draft) :
    literals ([Fragment.text separator].intercalate drafts) = drafts.flatMap literals := by
  induction drafts with
  | nil => rfl
  | cons draft rest ih =>
    cases rest with
    | nil => simp
    | cons next rest =>
      rw [List.intercalate_cons_cons, literals_append, literals_append, ih]
      simp [literals]

/-- Drafts with a separator between them are spelled with it between their texts. -/
theorem spell_intercalate (n : Nat) (separator : String) (drafts : List Draft) :
    spell n ([Fragment.text separator].intercalate drafts) =
      separator.intercalate (spellEach n drafts) := by
  induction drafts generalizing n with
  | nil => simp [spell, spellEach]
  | cons draft rest ih =>
    cases rest with
    | nil => simp [spellEach]
    | cons next rest =>
      rw [List.intercalate_cons_cons, List.append_assoc, spell_append, spell_append, ih]
      simp [spell, spellEach, literals, String.append_assoc]

/-- A junction has no draft if it has no members. -/
theorem junction_eq_none_iff {joiner : String} {drafts : List Draft} :
    junction joiner drafts = none ↔ drafts = [] := by
  match drafts with
  | [] => simp [junction]
  | [_] => simp [junction]
  | _ :: _ :: _ => simp [junction]

/-- The literals of a junction are those of its members. -/
theorem literals_junction (joiner : String) (drafts : List Draft) :
    (junction joiner drafts).elim [] literals = drafts.flatMap literals := by
  match drafts with
  | [] => rfl
  | [draft] => simp [junction]
  | first :: second :: rest =>
    simp only [junction, Option.elim_some, List.cons_append, literals, literals_append,
      literals_intercalate, List.append_nil]

/-- The text of a junction is the junction of the texts. -/
theorem spell_junction (n : Nat) (joiner : String) (drafts : List Draft) :
    (junction joiner drafts).map (spell n) = junctionText joiner (spellEach n drafts) := by
  match drafts with
  | [] => rfl
  | [draft] => simp [junction, spellEach, junctionText]
  | first :: second :: rest =>
    simp only [junction, spellEach, junctionText, Option.map_some, List.cons_append, spell,
      spell_append, spell_intercalate, String.append_empty, String.append_assoc]

end Draft

-- ---------------------------------------------------------------------------
-- Binding several literals
-- ---------------------------------------------------------------------------

namespace Binder

/-- Binds values to the next placeholders, one after another. -/
def bindAll (b : Binder) (values : List Value) : Binder :=
  values.foldl (fun b value => (b.bind value).2) b

/-- Values one behind the other are bound one behind the other. -/
theorem bindAll_append (b : Binder) (front back : List Value) :
    b.bindAll (front ++ back) = (b.bindAll front).bindAll back := by
  rw [bindAll, List.foldl_append]
  rfl

/-- Each value takes one number. -/
theorem next_bindAll (b : Binder) (values : List Value) :
    (b.bindAll values).next = b.next + values.length := by
  induction values generalizing b with
  | nil => rfl
  | cons value rest ih =>
    show ((b.bind value).2.bindAll rest).next = _
    rw [ih, next_bind, List.length_cons]
    omega

/-- The last value is bound to the number behind those of the others. -/
theorem find?_bindAll_concat (b : Binder) (values : List Value) (value : Value) (key : String) :
    Dictionary.find? key (b.bindAll (values ++ [value])).params =
      if name (b.next + values.length) = key then some value
      else Dictionary.find? key (b.bindAll values).params := by
  rw [bindAll_append]
  show Dictionary.find? key ((b.bindAll values).bind value).2.params = _
  rw [find?_params_bind, next_bindAll]

/-- The values are bound to consecutive numbers, from the next number of the binder on, and no value
is lost to a later one. -/
theorem find?_bindAll (b : Binder) (values : List Value) {i : Nat} (hi : i < values.length) :
    Dictionary.find? (name (b.next + i)) (b.bindAll values).params = some values[i] := by
  induction values using List.reverseRecOn with
  | nil => simp at hi
  | append_singleton rest value ih =>
    rw [find?_bindAll_concat]
    -- the last value has the last number; every other one was bound before
    by_cases hlast : i = rest.length
    · subst hlast
      simp
    · have hlt : i < rest.length := by
        rw [List.length_append, List.length_singleton] at hi
        omega
      have hne : name (b.next + rest.length) ≠ name (b.next + i) := by
        intro hname
        have := name_injective hname
        omega
      rw [if_neg hne, ih hlt, List.getElem_append_left hlt]

/-- The entries of values that are bound to consecutive numbers. -/
def numbered (n : Nat) (values : List Value) : Params :=
  (values.zipIdx n).map fun (value, i) => (name i, value)

theorem numbered_cons (n : Nat) (value : Value) (rest : List Value) :
    numbered n (value :: rest) = (name n, value) :: numbered (n + 1) rest := by
  rw [numbered, List.zipIdx_cons, List.map_cons, ← numbered]

/-- The names of numbered entries are consecutive. -/
theorem keys_numbered (n : Nat) (values : List Value) :
    Dictionary.keys (numbered n values) = (List.range' n values.length).map name := by
  induction values generalizing n with
  | nil => rfl
  | cons value rest ih =>
    rw [numbered_cons, Dictionary.keys, List.map_cons, ← Dictionary.keys, ih, List.length_cons,
      List.range'_succ, List.map_cons]

/-- The new entries stand beside those that were bound before, if none of those has a number that is
still to come. -/
theorem params_bindAll_perm (b : Binder) (values : List Value)
    (hfresh : ∀ i, b.next ≤ i → name i ∉ Dictionary.keys b.params) :
    (b.bindAll values).params.Perm (b.params ++ numbered b.next values) := by
  induction values generalizing b with
  | nil => simp [bindAll, numbered]
  | cons value rest ih =>
    have hentries : (b.bind value).2.params.Perm ((name b.next, value) :: b.params) :=
      Dictionary.insert_perm (hfresh b.next (Nat.le_refl _))
    -- the name of the first value is taken now, but later values have later numbers
    have hrest : ∀ i, (b.bind value).2.next ≤ i →
        name i ∉ Dictionary.keys (b.bind value).2.params := by
      intro i hi hmem
      rw [next_bind] at hi
      rcases Dictionary.mem_keys_insert.1 hmem with heq | hold
      · have := name_injective heq
        omega
      · exact hfresh i (by omega) hold
    have hlater := ih (b.bind value).2 hrest
    rw [next_bind] at hlater
    refine hlater.trans ?_
    rw [numbered_cons]
    exact (hentries.append_right _).trans List.perm_middle.symm

/-- The keys are the new names beside those that were bound before. -/
theorem keys_bindAll_perm (b : Binder) (values : List Value)
    (hfresh : ∀ i, b.next ≤ i → name i ∉ Dictionary.keys b.params) :
    (Dictionary.keys (b.bindAll values).params).Perm
      (Dictionary.keys b.params ++ (List.range' b.next values.length).map name) := by
  have hentries := (params_bindAll_perm b values hfresh).map Prod.fst
  rwa [List.map_append, ← Dictionary.keys, ← Dictionary.keys, ← Dictionary.keys, keys_numbered]
    at hentries

/-- Which names are bound depends on the number of values alone. -/
theorem keys_bindAll_congr {b c : Binder} {values others : List Value}
    (hnext : b.next = c.next) (hkeys : Dictionary.keys b.params = Dictionary.keys c.params)
    (hlength : values.length = others.length) :
    Dictionary.keys (b.bindAll values).params = Dictionary.keys (c.bindAll others).params := by
  induction values generalizing b c others with
  | nil =>
    cases others with
    | nil => exact hkeys
    | cons other rest => simp at hlength
  | cons value rest ih =>
    cases others with
    | nil => simp at hlength
    | cons other tail =>
      -- both binders give the next value the same name
      refine ih (b := (b.bind value).2) (c := (c.bind other).2) ?_ ?_ (by simpa using hlength)
      · rw [next_bind, next_bind, hnext]
      · show Dictionary.keys (Dictionary.insert (name b.next) value b.params) = _
        rw [hnext]
        exact Dictionary.keys_insert_congr _ value other hkeys

end Binder

-- ---------------------------------------------------------------------------
-- Traversals
-- ---------------------------------------------------------------------------

namespace Traversal

/-- What a traversal writes in front of the condition of the roots. -/
def opening (traversal : Option Traversal) (className : String) (grouped : Bool) : String :=
  match traversal with
  | none => "SELECT * FROM " ++ className ++ " WHERE "
  | some (.neighborhood _ _ _) =>
    "SELECT * FROM (MATCH " ++ "\x7bclass: " ++ className ++ ", WHERE: " ++
      if grouped then "" else "("
  | some (.walk edges direction _) =>
    "TRAVERSE " ++ edgeCall direction edges ++ " FROM (" ++ "SELECT * FROM " ++ className ++
      " WHERE "

/-- What a traversal writes behind the condition of the roots. -/
def closing (traversal : Option Traversal) (grouped : Bool) : String :=
  match traversal with
  | none => ""
  | some (.neighborhood edges direction depth) =>
    (if grouped then "" else ")") ++ "\x7d" ++ "." ++ edgeCall direction edges ++
      "\x7bWHILE: ($depth < " ++ toString depth ++ ")\x7d RETURN DISTINCT $pathElements)"
  | some (.walk _ _ maxDepth) => ") MAXDEPTH " ++ toString maxDepth

/-- A selection with a condition is written around it, in all three forms. -/
theorem text_some (traversal : Option Traversal) (className condition : String) (grouped : Bool) :
    text traversal className (some condition) grouped =
      opening traversal className grouped ++ condition ++ closing traversal grouped := by
  unfold text opening closing
  rcases traversal with _ | (⟨edges, direction, depth⟩ | ⟨edges, direction, maxDepth⟩)
  · dsimp only
    unfold selectText
    simp only [String.append_empty]
  · dsimp only
    unfold rootText
    cases grouped <;>
      simp only [Bool.false_eq_true, if_false, if_true, String.append_assoc, String.append_empty,
        String.empty_append]
  · dsimp only
    unfold selectText
    simp only [String.append_assoc]

/-- The draft of a selection of a class around the draft of its condition. -/
def draft (traversal : Option Traversal) (className : String) (condition : Option Draft)
    (grouped : Bool) : Draft :=
  match condition with
  | none => [.text (text traversal className none grouped)]
  | some condition =>
    .text (opening traversal className grouped) :: condition ++ [.text (closing traversal grouped)]

/-- The draft around a condition is spelled as the text around it. -/
theorem spell_draft (n : Nat) (traversal : Option Traversal) (className : String)
    (condition : Option Draft) (grouped : Bool) :
    (draft traversal className condition grouped).spell n =
      text traversal className (condition.map (Draft.spell n)) grouped := by
  cases condition with
  | none => simp [draft, Draft.spell]
  | some condition =>
    simp [draft, Draft.spell, Draft.spell_append, text_some, String.append_assoc]

/-- The literals around a condition are those of the condition. -/
theorem literals_draft (traversal : Option Traversal) (className : String)
    (condition : Option Draft) (grouped : Bool) :
    (draft traversal className condition grouped).literals = condition.elim [] Draft.literals := by
  cases condition <;> simp [draft, Draft.literals, Draft.literals_append]

end Traversal

-- ---------------------------------------------------------------------------
-- Filters and selections
-- ---------------------------------------------------------------------------

mutual

/-- The draft of a filter, if it has a text. -/
def Filter.draft : Filter → Option Draft
  | .leaf comparison => some (Comparison.draft comparison)
  | .all children => Draft.junction "AND" (Filter.draftEach children)
  | .any children => Draft.junction "OR" (Filter.draftEach children)
  termination_by structural f => f

/-- The drafts of those filters that have one. -/
def Filter.draftEach : List Filter → List Draft
  | [] => []
  | child :: rest => (Filter.draft child).toList ++ Filter.draftEach rest
  termination_by structural fs => fs

/-- The drafts of the conjuncts of a filter. -/
def Filter.draftConjuncts : Filter → List Draft
  | .all children => Filter.draftEach children
  | .leaf comparison => [Comparison.draft comparison]
  | .any children => (Draft.junction "OR" (Filter.draftEach children)).toList
  termination_by structural f => f

/-- The draft of a comparison. -/
def Comparison.draft : Comparison → Draft
  | ⟨property, operator, operand, negated⟩ =>
    Draft.negation negated (Operand.draft operand property operator)
  termination_by structural c => c

/-- The draft of the comparison of a property with an operand. -/
def Operand.draft : Operand → String → Operator → Draft
  | .literal value, property, operator =>
    if value.isNull && operator = .equal then [.text (absenceText property)]
    else [.text (property ++ " " ++ operator.keyword ++ " "), .literal value]
  | .selection selection, property, operator =>
    .text (property ++ " " ++ operator.selectionKeyword ++ " (") ::
      Selection.draft selection ++ [.text ")"]
  termination_by structural o => o

/-- The draft of a selection. -/
def Selection.draft : Selection → Draft
  | ⟨.records ids, _, _, _⟩ => [.text (recordsText ids)]
  | ⟨.named className, none, history, traversal⟩ =>
    let condition := if history then none else some [.text (absenceText deletionTime)]
    Traversal.draft traversal className condition false
  | ⟨.named className, some filter, true, traversal⟩ =>
    Traversal.draft traversal className (Filter.draft filter) filter.rendersGrouped
  | ⟨.named className, some filter, false, traversal⟩ =>
    let active : Draft := [.text (absenceText deletionTime)]
    Traversal.draft traversal className
      (Draft.junction "AND" (Filter.draftConjuncts filter ++ [active]))
      (filter.andAlso Filter.active).rendersGrouped
  termination_by structural s => s

end

namespace Filter

/-- The literals that a filter binds, from left to right. -/
def literals (f : Filter) : List Value := f.draft.elim [] Draft.literals

/-- The literals of the drafts are those of the filters; a filter without a draft has none. -/
theorem literals_draftEach (fs : List Filter) :
    (draftEach fs).flatMap Draft.literals = fs.flatMap literals := by
  induction fs with
  | nil => rfl
  | cons f rest ih =>
    rw [draftEach, List.flatMap_append, ih, List.flatMap_cons, literals]
    cases f.draft <;> simp

theorem literals_all (children : List Filter) :
    (Filter.all children).literals = children.flatMap literals := by
  rw [literals, draft, Draft.literals_junction, literals_draftEach]

theorem literals_any (children : List Filter) :
    (Filter.any children).literals = children.flatMap literals := by
  rw [literals, draft, Draft.literals_junction, literals_draftEach]

theorem collects_literals : Collects literals := ⟨literals_all, literals_any⟩

/-- The drafts of filters are those of the filters that have one. -/
theorem draftEach_eq_filterMap (fs : List Filter) : draftEach fs = fs.filterMap draft := by
  induction fs with
  | nil => rfl
  | cons f rest ih =>
    rw [draftEach, ih, List.filterMap_cons]
    cases f.draft <;> rfl

theorem mem_draftEach {fs : List Filter} {d : Draft} :
    d ∈ draftEach fs ↔ ∃ f ∈ fs, f.draft = some d := by
  rw [draftEach_eq_filterMap, List.mem_filterMap]

theorem draftEach_append (front back : List Filter) :
    draftEach (front ++ back) = draftEach front ++ draftEach back := by
  simp only [draftEach_eq_filterMap, List.filterMap_append]

/-- There is no draft in the list if all the filters are empty. -/
theorem draftEach_eq_nil_iff {fs : List Filter}
    (h : ∀ f ∈ fs, f.draft = none ↔ f.isEmpty = true) : draftEach fs = [] ↔ areEmpty fs = true := by
  rw [draftEach_eq_filterMap, List.filterMap_eq_nil_iff, areEmpty_eq_all, List.all_eq_true]
  exact forall₂_congr h

/-- A filter has a draft if it holds a comparison. -/
theorem draft_eq_none_iff {f : Filter} : f.draft = none ↔ f.isEmpty = true := by
  induction f using Filter.induction with
  | leaf comparison => simp [draft, isEmpty]
  | all children ih =>
    rw [draft, Draft.junction_eq_none_iff, draftEach_eq_nil_iff ih, isEmpty]
  | any children ih =>
    rw [draft, Draft.junction_eq_none_iff, draftEach_eq_nil_iff ih, isEmpty]

theorem draft_active : active.draft = some [.text (absenceText deletionTime)] := by
  simp [active, Comparison.isNull, Comparison.equals, draft, Comparison.draft, Operand.draft,
    Value.isNull, Draft.negation]

theorem rendersGrouped_active : active.rendersGrouped = false := by
  simp [active, rendersGrouped]

/-- The draft of a filter with the condition that records are active behind it: that of its
conjuncts with one more. -/
theorem draft_andAlso_active (f : Filter) :
    (f.andAlso active).draft =
      Draft.junction "AND" (draftConjuncts f ++ [[.text (absenceText deletionTime)]]) := by
  cases f with
  | leaf comparison => simp [andAlso, draft, draftEach, draftConjuncts, draft_active]
  | all children =>
    simp [andAlso, draft, draftEach, draftEach_append, draftConjuncts, draft_active]
  | any children => simp [andAlso, draft, draftEach, draftConjuncts, draft_active]

end Filter

namespace Selection

/-- The literals that a selection binds, from left to right. -/
def literals (s : Selection) : List Value := s.draft.literals

/-- The draft of a selection of a class is its traversal around that of its effective filter. -/
theorem draft_named (className : String) (filter : Option Filter) (history : Bool)
    (traversal : Option Traversal) :
    let s : Selection := ⟨.named className, filter, history, traversal⟩
    s.draft = Traversal.draft traversal className (s.effectiveFilter.bind Filter.draft)
      (s.effectiveFilter.any Filter.rendersGrouped) := by
  cases filter <;> cases history <;>
    simp [draft, effectiveFilter, Filter.draft_active, Filter.draft_andAlso_active,
      Filter.rendersGrouped_active]

/-- A selection binds the literals of its effective filter. -/
theorem literals_named (className : String) (filter : Option Filter) (history : Bool)
    (traversal : Option Traversal) :
    let s : Selection := ⟨.named className, filter, history, traversal⟩
    s.literals = s.effectiveFilter.elim [] Filter.literals := by
  intro s
  rw [literals, draft_named, Traversal.literals_draft]
  cases s.effectiveFilter <;> rfl

end Selection

-- ---------------------------------------------------------------------------
-- Rendering spells the draft
-- ---------------------------------------------------------------------------

/-- A list of filters spells the drafts of those that have a text. Each filter starts with the
number that the ones before it left, and one without a text uses up none. -/
theorem Filter.renderEach_eq_draft {fs : List Filter}
    (h : ∀ f ∈ fs, ∀ b, f.render b = (f.draft.map (Draft.spell b.next), b.bindAll f.literals))
    (b : Binder) :
    renderEach fs b =
      (Draft.spellEach b.next (draftEach fs), b.bindAll (fs.flatMap literals)) := by
  induction fs generalizing b with
  | nil => simp [renderEach, draftEach, Draft.spellEach, Binder.bindAll]
  | cons f rest ih =>
    have hrest := ih fun g hg => h g (List.mem_cons_of_mem _ hg)
    rw [renderEach, h f (List.mem_cons_self ..), draftEach, Draft.spellEach_append,
      List.flatMap_cons, Binder.bindAll_append]
    dsimp only
    rw [hrest, Binder.next_bindAll, literals]
    cases f.draft <;> simp [Draft.spellEach]

/-- Rendering spells the draft from the next number of the binder on, and binds its literals in
their order. Everything that is proved of texts and parameters goes through this. -/
theorem render_eq_draft :
    (∀ (f : Filter) (b : Binder),
      f.render b = (f.draft.map (Draft.spell b.next), b.bindAll f.literals)) ∧
    ∀ (s : Selection) (b : Binder),
      s.render b = (s.draft.spell b.next, b.bindAll s.literals) := by
  refine Selection.induction ?_ ?_ ?_ ?_ ?_
  · intro property operator value negated b
    rw [Filter.render, Comparison.render, Operand.render, Filter.literals, Filter.draft,
      Comparison.draft, Operand.draft]
    dsimp only [Option.map_some, Option.elim_some]
    rw [Draft.spell_negation, Draft.literals_negation]
    split
    · simp [Draft.spell, Draft.literals, Binder.bindAll]
    · have hcolon : " :" = " " ++ ":" := by decide
      rw [hcolon]
      simp only [Draft.spell, Draft.literals, Binder.bindAll, Binder.bind, List.foldl_cons,
        List.foldl_nil, String.append_empty, String.append_assoc]
  · intro property operator s negated ih b
    rw [Filter.render, Comparison.render, Operand.render, Filter.literals, Filter.draft,
      Comparison.draft, Operand.draft]
    dsimp only [Option.map_some, Option.elim_some]
    rw [ih, Draft.spell_negation, Draft.literals_negation]
    simp [Draft.spell, Draft.spell_append, Draft.literals, Draft.literals_append,
      Selection.literals, String.append_assoc]
  -- the members are rendered in turn, each from where the binder was left by the one before
  · intro children ih b
    rw [Filter.render, Filter.renderEach_eq_draft ih, Filter.literals_all, Filter.draft]
    dsimp only
    rw [Draft.spell_junction]
  · intro children ih b
    rw [Filter.render, Filter.renderEach_eq_draft ih, Filter.literals_any, Filter.draft]
    dsimp only
    rw [Draft.spell_junction]
  · rintro ⟨target, filter, history, traversal⟩ - heffective b
    cases target with
    | records ids =>
      rw [Selection.render_records]
      simp [Selection.draft, Selection.literals, Draft.spell, Draft.literals, Binder.bindAll]
    | named className =>
      rw [Selection.render_named, Selection.draft_named, Selection.literals_named,
        Traversal.spell_draft, Selection.condition]
      generalize Selection.effectiveFilter ⟨.named className, filter, history, traversal⟩ = e
        at heffective
      cases e with
      | none => simp [Binder.bindAll]
      | some f => simp [heffective f rfl]

/-- The text of a filter is the spelled draft, and its literals are bound in their order. -/
theorem Filter.render_eq_draft (f : Filter) (b : Binder) :
    f.render b = (f.draft.map (Draft.spell b.next), b.bindAll f.literals) :=
  RecordQuery.render_eq_draft.1 f b

/-- A filter has a text if it holds a comparison. -/
theorem Filter.render_fst_eq_none_iff {f : Filter} {b : Binder} :
    (f.render b).1 = none ↔ f.isEmpty = true := by
  rw [render_eq_draft, Option.map_eq_none_iff, draft_eq_none_iff]

/-- The text of a selection is the spelled draft, and its literals are bound in their order. -/
theorem Selection.render_eq_draft (s : Selection) (b : Binder) :
    s.render b = (s.draft.spell b.next, b.bindAll s.literals) :=
  RecordQuery.render_eq_draft.2 s b

end RecordQuery
