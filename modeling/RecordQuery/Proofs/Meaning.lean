import RecordQuery.Proofs.Nesting

/-!
# The text of a filter means the filter

Reading the text of a filter gives a condition on the same comparisons in the same order, and it is
true exactly when the filter is. So parentheses stand where they are needed, whatever the shape of
the tree: a junction of one member goes without, one without any comparison leaves no trace, and a
negation stands around a single comparison.

* `Filter.comparisons`, `Filter.holds` — the comparisons of a filter from left to right, and its
  truth under truth values for them.
* `Comparison.bodies` — the texts of comparisons, without what negates them.
* `Comparison.isRead_operand` — such a text is read as that comparison.
* `Filter.exists_junction_reading` — a junction is read as its members with the connective between
  them, of which those without a text leave no trace.
* `Filter.exists_reading` — the text of a filter is a factor wherever it stands.
* `Filter.read_render` — it is read as a condition that means the filter.
-/

namespace RecordQuery

-- ---------------------------------------------------------------------------
-- What a filter means
-- ---------------------------------------------------------------------------

namespace Filter

mutual

/-- The comparisons of a filter from left to right, not those inside nested selections. -/
def comparisons : Filter → List Comparison
  | .leaf comparison => [comparison]
  | .all children => comparisonsEach children
  | .any children => comparisonsEach children
  termination_by structural f => f

/-- The comparisons of a list of filters. -/
def comparisonsEach : List Filter → List Comparison
  | [] => []
  | child :: rest => comparisons child ++ comparisonsEach rest
  termination_by structural fs => fs

end

mutual

/-- Whether a filter is true if its comparisons have the truth values from number `n` on. -/
def holds (truth : Nat → Bool) : Nat → Filter → Bool
  | n, .leaf ⟨_, _, _, negated⟩ => truth n ^^ negated
  | n, .all children => holdAll truth n children
  | n, .any children => holdAny truth n children
  termination_by structural _ f => f

/-- Whether all filters that have a comparison are true. -/
def holdAll (truth : Nat → Bool) : Nat → List Filter → Bool
  | _, [] => true
  | n, child :: rest =>
    (isEmpty child || holds truth n child) && holdAll truth (n + leafCount child) rest
  termination_by structural _ fs => fs

/-- Whether one of the filters that have a comparison is true. -/
def holdAny (truth : Nat → Bool) : Nat → List Filter → Bool
  | _, [] => false
  | n, child :: rest =>
    (!isEmpty child && holds truth n child) || holdAny truth (n + leafCount child) rest
  termination_by structural _ fs => fs

end

end Filter

namespace Comparison

/-- The texts of comparisons without their negations, with placeholders from one binder. -/
def bodies : List Comparison → Binder → List String
  | [], _ => []
  | c :: rest, b =>
    let (text, b) := Operand.render c.operand c.property c.operator b
    text :: bodies rest b

/-- The draft of a comparison without its negation. -/
def body (c : Comparison) : Draft := Operand.draft c.operand c.property c.operator

theorem draft_eq (c : Comparison) : c.draft = Draft.negation c.negated c.body := by
  obtain ⟨property, operator, operand, negated⟩ := c
  rw [draft, body]

end Comparison

/-- Rendering an operand spells its draft. -/
theorem Operand.render_eq_draft (operand : Operand) (property : String) (operator : Operator)
    (b : Binder) :
    Operand.render operand property operator b =
      ((Operand.draft operand property operator).spell b.next,
        b.bindAll (Operand.draft operand property operator).literals) := by
  have hleaf := Filter.render_eq_draft (.leaf ⟨property, operator, operand, false⟩) b
  rw [Filter.render, Comparison.render, Filter.literals, Filter.draft, Comparison.draft] at hleaf
  have htext := congrArg (fun r => r.1.getD "") hleaf
  have hbinder := congrArg Prod.snd hleaf
  exact Prod.ext htext hbinder

/-- The texts of bodies in turn are their drafts, numbered through from the state of the binder. -/
theorem Comparison.bodies_eq (cs : List Comparison) (b : Binder) :
    bodies cs b = Draft.spellEach b.next (cs.map body) := by
  induction cs generalizing b with
  | nil => rfl
  | cons c rest ih =>
    rw [bodies, Operand.render_eq_draft, List.map_cons, Draft.spellEach]
    dsimp only
    rw [ih, Binder.next_bindAll]
    rfl

namespace Filter

-- ---------------------------------------------------------------------------
-- The comparisons of a filter
-- ---------------------------------------------------------------------------

/-- A tree has as many comparisons as leaves. -/
theorem length_comparisons (f : Filter) : f.comparisons.length = f.leafCount := by
  have heach : ∀ {fs : List Filter}, (∀ f ∈ fs, f.comparisons.length = f.leafCount) →
      (comparisonsEach fs).length = leafCounts fs := by
    intro fs h
    induction fs with
    | nil => rfl
    | cons f rest ih =>
      rw [comparisonsEach, List.length_append, h f (List.mem_cons_self ..),
        ih fun g hg => h g (List.mem_cons_of_mem _ hg), leafCounts]
  induction f using Filter.induction with
  | leaf comparison => rw [comparisons, leafCount, List.length_singleton]
  | all children ih => rw [comparisons, leafCount, heach ih]
  | any children ih => rw [comparisons, leafCount, heach ih]

/-- The comparisons below a junction are those of its members, one member after another. -/
theorem comparisonsEach_eq_flatMap (fs : List Filter) :
    comparisonsEach fs = fs.flatMap comparisons := by
  induction fs with
  | nil => rfl
  | cons f rest ih => rw [comparisonsEach, ih, List.flatMap_cons]

theorem collects_comparisons : Collects comparisons where
  all children := by rw [comparisons, comparisonsEach_eq_flatMap]
  any children := by rw [comparisons, comparisonsEach_eq_flatMap]

/-- The literals of a filter are those of its comparisons: neither negation nor the words between
the members bring in any. -/
theorem literals_eq_bodies (f : Filter) :
    f.literals = (f.comparisons.map Comparison.body).flatMap Draft.literals := by
  have heach : ∀ {fs : List Filter},
      (∀ f ∈ fs, f.literals = (f.comparisons.map Comparison.body).flatMap Draft.literals) →
      fs.flatMap literals = ((comparisonsEach fs).map Comparison.body).flatMap Draft.literals := by
    intro fs h
    rw [comparisonsEach_eq_flatMap, List.map_flatMap, List.flatMap_assoc]
    exact List.flatMap_congr h
  induction f using Filter.induction with
  | leaf comparison =>
    rw [literals, draft, comparisons, Comparison.draft_eq, Option.elim_some,
      Draft.literals_negation]
    simp
  | all children ih => rw [literals_all, comparisons, heach ih]
  | any children ih => rw [literals_any, comparisons, heach ih]

-- ---------------------------------------------------------------------------
-- Reading
-- ---------------------------------------------------------------------------

/-- What a text that is read as a factor says of a filter whose first placeholder has number `k`:
the condition has its comparisons, and its truth. -/
structure Means (f : Filter) (k : Nat) (items : List Item) (e : Condition) : Prop where
  factor : Condition.IsFactor items e
  comparisons :
    e.comparisons = (Draft.spellEach k (f.comparisons.map Comparison.body)).map lexemes
  holds : ∀ truth n, e.holds truth n = f.holds truth n

theorem Means.length {f : Filter} {k : Nat} {items : List Item} {e : Condition}
    (h : f.Means k items e) : e.comparisons.length = f.leafCount := by
  rw [h.comparisons, List.length_map, Draft.length_spellEach, List.length_map, length_comparisons]

/-- The text of the filter is a factor that means the filter. -/
def HasReading (f : Filter) : Prop :=
  ∀ d ∈ f.draft, ∀ k, ∃ items e, Item.Reads (lexemes (d.spell k)) items ∧ f.Means k items e

/-- Of filters with readings, the texts of those that have one are read one after another. Each
takes up the numbers where the one before left off, so the comparisons are numbered through. -/
theorem exists_readings {fs : List Filter} (h : ∀ f ∈ fs, f.HasReading) (k : Nat) :
    ∃ pieces conditions,
      List.Forall₂ Item.Reads ((Draft.spellEach k (draftEach fs)).map lexemes) pieces ∧
      List.Forall₂ Condition.IsFactor pieces conditions ∧
      conditions.flatMap Condition.comparisons =
        (Draft.spellEach k ((comparisonsEach fs).map Comparison.body)).map lexemes ∧
      ∀ truth n, Condition.allHold truth n conditions = holdAll truth n fs ∧
        Condition.anyHolds truth n conditions = holdAny truth n fs := by
  induction fs generalizing k with
  | nil => exact ⟨[], [], .nil, .nil, rfl, fun _ _ => ⟨rfl, rfl⟩⟩
  | cons f rest ih =>
    have hrest := ih fun g hg => h g (List.mem_cons_of_mem _ hg)
    cases hdraft : f.draft with
    | none =>
      -- a filter without a text has no comparisons either
      have hempty := draft_eq_none_iff.1 hdraft
      have hnone := collects_comparisons.eq_nil_of_isEmpty hempty
      have hcount : f.leafCount = 0 := by rw [← length_comparisons, hnone, List.length_nil]
      obtain ⟨pieces, conditions, hpieces, hfactors, hcomparisons, htruth⟩ := hrest k
      refine ⟨pieces, conditions, ?_, hfactors, ?_, ?_⟩
      · rw [draftEach, hdraft, Option.toList_none, List.nil_append]
        exact hpieces
      · rw [hcomparisons, comparisonsEach, hnone, List.nil_append]
      · intro truth n
        rw [holdAll, holdAny, hempty, hcount, (htruth truth n).1, (htruth truth n).2]
        simp
    | some d =>
      obtain ⟨items, e, hreads, hmeans⟩ := h f (List.mem_cons_self ..) d hdraft k
      obtain ⟨pieces, conditions, hpieces, hfactors, hcomparisons, htruth⟩ :=
        hrest (k + f.literals.length)
      have hempty : f.isEmpty = false := by
        rw [Bool.eq_false_iff, Ne, ← draft_eq_none_iff, hdraft]
        exact Option.some_ne_none d
      have hliterals : d.literals.length = f.literals.length := by
        rw [literals, hdraft, Option.elim_some]
      refine ⟨items :: pieces, e :: conditions, ?_, .cons hmeans.factor hfactors, ?_, ?_⟩
      · rw [draftEach, hdraft, Option.toList_some, List.singleton_append, Draft.spellEach,
          List.map_cons, hliterals]
        exact .cons hreads hpieces
      · rw [List.flatMap_cons, hmeans.comparisons, hcomparisons, comparisonsEach, List.map_append,
          Draft.spellEach_append, List.map_append, literals_eq_bodies]
      · intro truth n
        rw [Condition.allHold, Condition.anyHolds, holdAll, holdAny, hmeans.holds, hmeans.length,
          (htruth truth _).1, (htruth truth _).2, hempty]
        simp

end Filter

-- ---------------------------------------------------------------------------
-- Comparisons
-- ---------------------------------------------------------------------------

namespace Condition

/-- A comparison is a factor if none of its words joins conditions: then it is neither cut at a
connective nor taken for a negation. -/
theorem IsFactor.comparison {property : String} {rest : List Item} {e : Condition}
    (h : comparison? (.word property :: rest) = some e)
    (hwords : ∀ text, .word text ∈ Item.word property :: rest → text ∉ connectives) :
    IsFactor (.word property :: rest) e := by
  -- a word of the comparison is no connective, and a group is no word
  have hfree : ∀ connective ∈ connectives, ∀ item ∈ Item.word property :: rest,
      item.isWord connective = false := by
    intro connective hconnective item hitem
    cases item with
    | group source condition => rfl
    | word text =>
      rw [Item.isWord, decide_eq_false_iff_not]
      rintro rfl
      exact hwords text hitem hconnective
  refine ⟨?_, hfree "AND" (by decide), hfree "OR" (by decide)⟩
  have hproperty : property ≠ "NOT" := by
    rintro rfl
    exact hwords "NOT" (List.mem_cons_self ..) (by decide)
  rw [factor?, if_neg hproperty, h]

/-- A parameter starts with a colon, and no connective does. -/
theorem not_mem_connectives_of_isParameter {text : String} (h : isParameter text = true) :
    text ∉ connectives := by
  intro hmem
  have hcases : text = "AND" ∨ text = "OR" ∨ text = "NOT" := by simpa [connectives] using hmem
  rcases hcases with rfl | rfl | rfl <;> revert h <;> decide

/-- No keyword of an operator is a connective. -/
theorem not_mem_connectives_of_isOperator {text : String} (h : text ∈ operatorKeywords) :
    text ∉ connectives := by
  have hall : ∀ keyword ∈ operatorKeywords, keyword ∉ connectives := by decide
  exact hall text h

variable {property operator operand : String}

/-- The absence of a property is read as one comparison of three words. -/
theorem IsFactor.absence (hproperty : property ∉ connectives) :
    IsFactor [.word property, .word "IS", .word "NULL"]
      (.comparison [.word property, .word "IS", .word "NULL"]) := by
  refine IsFactor.comparison (by simp [comparison?]) fun text htext => ?_
  simp only [List.mem_cons, Item.word.injEq, List.not_mem_nil, or_false] at htext
  rcases htext with rfl | rfl | rfl
  · exact hproperty
  · decide
  · decide

/-- A comparison with a parameter is read as one comparison of three words. -/
theorem IsFactor.parameter (hproperty : property ∉ connectives)
    (hoperator : operator ∈ operatorKeywords) (hoperand : isParameter operand = true) :
    IsFactor [.word property, .word operator, .word operand]
      (.comparison [.word property, .word operator, .word operand]) := by
  refine IsFactor.comparison (by simp [comparison?, hoperator, hoperand]) fun text htext => ?_
  simp only [List.mem_cons, Item.word.injEq, List.not_mem_nil, or_false] at htext
  rcases htext with rfl | rfl | rfl
  · exact hproperty
  · exact not_mem_connectives_of_isOperator hoperator
  · exact not_mem_connectives_of_isParameter hoperand

/-- A comparison with a nested selection is read as one comparison, whatever stands in the
parentheses: the reader does not look for connectives in there. -/
theorem IsFactor.nested (hproperty : property ∉ connectives)
    (hoperator : operator ∈ operatorKeywords) (source : List Lexeme) (condition : Option Condition) :
    IsFactor [.word property, .word operator, .group source condition]
      (.comparison (.word property :: .word operator :: (.opening :: source ++ [.closing]))) := by
  refine IsFactor.comparison (by simp [comparison?, hoperator, Item.source]) fun text htext => ?_
  simp only [List.mem_cons, Item.word.injEq, List.not_mem_nil, or_false, reduceCtorEq] at htext
  rcases htext with rfl | rfl
  · exact hproperty
  · exact not_mem_connectives_of_isOperator hoperator

end Condition

/-- A name that is one word and joins no conditions. -/
def IsName (name : String) : Prop := IsWord name ∧ name ∉ Condition.connectives

instance (name : String) : Decidable (IsName name) := inferInstanceAs (Decidable (_ ∧ _))

namespace Comparison

/-- The spelled draft is read as a comparison, as which it may stand in a condition. -/
def IsRead (d : Draft) (k : Nat) : Prop :=
  ∃ items, Item.Reads (lexemes (d.spell k)) items ∧
    Condition.IsFactor items (.comparison (lexemes (d.spell k)))

variable {property : String} {operator : Operator} {k : Nat}

/-- A property and a keyword in front of a text are its first two words. -/
theorem lexemes_words {keyword : String} (hproperty : IsWord property) (hkeyword : IsWord keyword)
    (rest : String) :
    lexemes (property ++ " " ++ keyword ++ " " ++ rest) =
      .word property :: .word keyword :: lexemes rest := by
  rw [lexemes_blank, lexemes_blank, lexemes_word hproperty, lexemes_word hkeyword]
  rfl

/-- The body of a test for null is read as one factor. -/
theorem isRead_absence (hproperty : IsName property) : IsRead [.text (absenceText property)] k := by
  obtain ⟨hword, hconnective⟩ := hproperty
  have htext : Draft.spell k [.text (absenceText property)] =
      property ++ " " ++ "IS" ++ " " ++ "NULL" := by
    simp only [Draft.spell, absenceText, String.append_assoc, String.append_empty]
    rfl
  have hlexemes : lexemes (Draft.spell k [.text (absenceText property)]) =
      [.word property, .word "IS", .word "NULL"] := by
    rw [htext, lexemes_words hword (by decide)]
    rfl
  rw [IsRead, hlexemes]
  exact ⟨_, ((Item.Reads.word _).append (.word _)).append (.word _), .absence hconnective⟩

/-- The body of a comparison with a literal is read as one factor, with the placeholder for its
operand. -/
theorem isRead_parameter (hproperty : IsName property) (value : Value) :
    IsRead [.text (property ++ " " ++ operator.keyword ++ " "), .literal value] k := by
  obtain ⟨hword, hconnective⟩ := hproperty
  have hkeyword : IsWord operator.keyword ∧ operator.keyword ∈ Condition.operatorKeywords := by
    cases operator <;> decide
  have hoperand : IsWord (":" ++ Binder.name k) := by
    refine ⟨?_, isUnbroken_placeholder k⟩
    rw [String.toList_append]
    simp
  have hparameter : Condition.isParameter (":" ++ Binder.name k) = true := by
    rw [Condition.isParameter, String.toList_append]
    rfl
  -- the body is three words, of which the last one is the placeholder
  have hlexemes : lexemes (Draft.spell k
      [.text (property ++ " " ++ operator.keyword ++ " "), .literal value]) =
      [.word property, .word operator.keyword, .word (":" ++ Binder.name k)] := by
    simp only [Draft.spell, String.append_empty]
    rw [lexemes_words hword hkeyword.1, lexemes_word hoperand]
  rw [IsRead, hlexemes]
  exact ⟨_, ((Item.Reads.word _).append (.word _)).append (.word _),
    .parameter hconnective hkeyword.2 hparameter⟩

/-- The body of a comparison with a selection is read as one factor. The parentheses around the
selection match those that are counted in its own text. -/
theorem isRead_nested (hproperty : IsName property) {s : Selection}
    (hnames : ∀ name ∈ s.names, IsUnbroken name) :
    IsRead (Operand.draft (.selection s) property operator) k := by
  obtain ⟨hword, hconnective⟩ := hproperty
  have hkeyword : IsWord operator.selectionKeyword ∧
      operator.selectionKeyword ∈ Condition.operatorKeywords := by
    cases operator <;> decide
  have htext : (Operand.draft (.selection s) property operator).spell k =
      property ++ " " ++ operator.selectionKeyword ++ " " ++ "" ++ "(" ++ s.draft.spell k ++
        ")" := by
    rw [Operand.draft]
    simp only [List.cons_append, Draft.spell, Draft.spell_append, String.append_assoc,
      String.append_empty]
    rfl
  have hlexemes : lexemes ((Operand.draft (.selection s) property operator).spell k) =
      .word property :: .word operator.selectionKeyword ::
        (.opening :: lexemes (s.draft.spell k) ++ [.closing]) := by
    rw [htext, lexemes_group, lexemes_words hword hkeyword.1]
    rfl
  -- the selection is read as one group, whatever it says
  obtain ⟨inside, hsource, hinside⟩ := Item.reads_of_depth (s.closed_draft hnames k 0)
  have hread := ((Item.Reads.word property).append (.word operator.selectionKeyword)).append
    hinside.group
  rw [hsource] at hread
  rw [IsRead, hlexemes]
  exact ⟨_, hread, .nested hconnective hkeyword.2 _ _⟩

/-- The text of a comparison without its negation is read as that comparison. -/
theorem isRead_operand {operand : Operand} (hproperty : IsName property)
    (hnames : ∀ name ∈ operand.names, IsUnbroken name) :
    IsRead (Operand.draft operand property operator) k := by
  cases operand with
  | literal value =>
    rw [Operand.draft]
    split
    · exact isRead_absence hproperty
    · exact isRead_parameter hproperty value
  | selection s =>
    rw [Operand.names] at hnames
    exact isRead_nested hproperty hnames

end Comparison

namespace Filter

/-- A comparison has a reading: its body is one factor by itself, and under a negation the
parentheses of `NOT` make it one. -/
theorem hasReading_leaf {comparison : Comparison}
    (hnames : ∀ name ∈ comparison.names, IsName name) : (leaf comparison).HasReading := by
  obtain ⟨property, operator, operand, negated⟩ := comparison
  rw [Comparison.names] at hnames
  have hproperty : IsName property := hnames property (List.mem_cons_self ..)
  have hinside : ∀ name ∈ operand.names, IsUnbroken name := fun name hname =>
    (hnames name (List.mem_cons_of_mem _ hname)).1.2
  intro d hd k
  obtain ⟨items, hreads, hfactor⟩ :=
    @Comparison.isRead_operand property operator k operand hproperty hinside
  rw [draft, Comparison.draft] at hd
  obtain rfl := Option.some.inj hd
  cases negated with
  | false =>
    refine ⟨items, _, hreads, hfactor, ?_, fun truth n => ?_⟩
    · rw [Condition.comparisons, comparisons]
      rfl
    · rw [Condition.holds, holds, Bool.xor_false]
  -- the group behind `NOT` is read as an expression of one factor, and the negation takes it whole
  | true =>
    have hgroup := (Item.Reads.word "NOT").append hreads.group
    rw [hfactor.expression] at hgroup
    have hlexemes : lexemes ((Draft.negation true
        (Operand.draft operand property operator)).spell k) =
        [.word "NOT"] ++
          (.opening :: lexemes ((Operand.draft operand property operator).spell k) ++
            [.closing]) := by
      have hsplit : ("NOT (" : String) = "NOT " ++ "(" := by decide
      rw [Draft.spell_negation, negationText, if_pos rfl, hsplit, lexemes_group]
      rfl
    rw [← hlexemes] at hgroup
    refine ⟨_, _, hgroup, (Condition.IsFactor.group _ _).negation, ?_, fun truth n => ?_⟩
    · rw [Condition.comparisons, Condition.comparisons, comparisons]
      rfl
    · rw [Condition.holds, Condition.holds, holds, Bool.xor_true]

/-- A junction of filters with readings is read as its members with the connective between them, one
after the other from the left. -/
theorem exists_junction_reading {connective : String} {join : Condition → Condition → Condition}
    (hword : IsWord connective)
    (hjoin : ∀ {pieces first rest}, List.Forall₂ Condition.IsFactor pieces (first :: rest) →
      Condition.expression? ([.word connective].intercalate pieces) = some (rest.foldl join first))
    {children : List Filter} (h : ∀ child ∈ children, child.HasReading) {d : Draft}
    (hd : Draft.junction connective (draftEach children) = some d) (k : Nat) :
    ∃ first rest items, Item.Reads (lexemes (d.spell k)) items ∧
      Condition.IsFactor items (rest.foldl join first) ∧
      (first :: rest).flatMap Condition.comparisons =
        (Draft.spellEach k ((comparisonsEach children).map Comparison.body)).map lexemes ∧
      ∀ truth n, Condition.allHold truth n (first :: rest) = holdAll truth n children ∧
        Condition.anyHolds truth n (first :: rest) = holdAny truth n children := by
  obtain ⟨pieces, conditions, hreads, hfactors, hcomparisons, htruth⟩ := exists_readings h k
  have htext : junctionText connective (Draft.spellEach k (draftEach children)) =
      some (d.spell k) := by
    -- the text of the junction is the joined texts of its members, so the grammar reads the members
    rw [← Draft.spell_junction, hd, Option.map_some]
  obtain ⟨first, rest, items, rfl, hread, hfactor⟩ :=
    Condition.exists_factor_of_junction hword hjoin htext hreads hfactors
  exact ⟨first, rest, items, hread, hfactor, hcomparisons, htruth⟩

/-- The text of a filter is a factor wherever it stands, and means the filter. By induction on the
filter, for texts from any number on. -/
theorem exists_reading {f : Filter} (hnames : ∀ name ∈ f.names, IsName name) : f.HasReading := by
  induction f using Filter.induction with
  | leaf comparison =>
    rw [names] at hnames
    exact hasReading_leaf hnames
  | all children ih =>
    intro d hd k
    rw [draft] at hd
    -- members are read one by one, and folded with the connective as the filter folds them
    obtain ⟨first, rest, items, hread, hfactor, hcomparisons, htruth⟩ :=
      exists_junction_reading (by decide) Condition.IsFactor.conjunction (fun child hchild =>
        ih child hchild fun name hname => hnames name (mem_names_all.2 ⟨child, hchild, hname⟩))
        hd k
    refine ⟨items, rest.foldl .both first, hread, hfactor, ?_, fun truth n => ?_⟩
    · rw [Condition.comparisons_foldl_both, ← List.flatMap_cons, hcomparisons, comparisons]
    · rw [Condition.holds_foldl_both, (htruth truth n).1, holds]
  | any children ih =>
    intro d hd k
    rw [draft] at hd
    obtain ⟨first, rest, items, hread, hfactor, hcomparisons, htruth⟩ :=
      exists_junction_reading (by decide) Condition.IsFactor.disjunction (fun child hchild =>
        ih child hchild fun name hname => hnames name (mem_names_any.2 ⟨child, hchild, hname⟩))
        hd k
    refine ⟨items, rest.foldl .either first, hread, hfactor, ?_, fun truth n => ?_⟩
    · rw [Condition.comparisons_foldl_either, ← List.flatMap_cons, hcomparisons, comparisons]
    · rw [Condition.holds_foldl_either, (htruth truth n).2, holds]

/-- The text of a filter is read as a condition on the comparisons of the filter, in their order,
that is true under the same truth values of these. -/
theorem read_render {f : Filter} {b : Binder} {text : String}
    (hnames : ∀ name ∈ f.names, IsName name) (h : (f.render b).1 = some text) :
    ∃ e, Condition.read? text = some e ∧
      e.comparisons = (Comparison.bodies f.comparisons b).map lexemes ∧
      ∀ truth, e.holds truth 0 = f.holds truth 0 := by
  rw [render_eq_draft] at h
  obtain ⟨d, hd, rfl⟩ := Option.map_eq_some_iff.1 h
  obtain ⟨items, e, hreads, hmeans⟩ := exists_reading hnames d hd b.next
  refine ⟨e, ?_, ?_, fun truth => hmeans.holds truth 0⟩
  · rw [Condition.read?_eq hreads, hmeans.factor.expression]
  · rw [hmeans.comparisons, Comparison.bodies_eq]

/-- Junctions of both kinds inside each other, empty ones, a negation and a nested selection. -/
def mixed : Filter :=
  .any [
    .all [
      .leaf ⟨"name", .equal, .literal (.string "Ann"), true⟩,
      .any [.leaf ⟨"age", .less, .literal (.int 30), false⟩, .all [.any []],
        .leaf ⟨"friends", .containsAny, .selection (.ofClass "Person" none false), false⟩]],
    .all [.any [.leaf ⟨"nickname", .equal, .literal .null, false⟩]]]

/-- A conjunction below a disjunction, a negation and a nested selection, from placeholder nine
on. -/
theorem read_render_mixed :
    (∀ name ∈ mixed.names, IsName name) ∧
      ∃ text e, (mixed.render (Binder.startingAt 9)).1 = some text ∧
        Condition.read? text = some e ∧
        e.comparisons =
          (Comparison.bodies mixed.comparisons (Binder.startingAt 9)).map lexemes ∧
        ∀ truth, e.holds truth 0 = (!truth 0 && (truth 1 || truth 2) || truth 3) := by
  have hnames : ∀ name ∈ mixed.names, IsName name := by decide
  obtain ⟨e, hread, hcomparisons, hholds⟩ := read_render (b := Binder.startingAt 9) hnames rfl
  refine ⟨hnames, _, e, rfl, hread, hcomparisons, fun truth => ?_⟩
  rw [hholds]
  simp [mixed, holds, holdAll, holdAny, isEmpty, areEmpty, leafCount, leafCounts]

end Filter

end RecordQuery
