import RecordQuery.Proofs.Contract
import RecordQuery.Proofs.Placeholders
import RecordQuery.Store.Search

/-!
# Keyword searches and full-text comparisons

A keyword search checks the words of its keyword, and then asks for one comparison with each of
them, which is checked like any other when the request is. A full-text comparison of the name with
the whole keyword goes through one check. The two accept the same keywords, since a word is the only
word of itself, and the second check of a word asks nothing that the first did not.

* `checkWords_of_mem_words` — the words of an accepted text are accepted as texts.
* `keywordRequest_eq_ok` and `Comparison.ofLiteral_name_eq_ok` — when the search is accepted, and
  when the comparison is.
* `Query.ofRequest_keywordRequest` — the query of a search.
* `keywordRequest_iff_ofLiteral` — the two accept the same keywords and report the same short word,
  and the statement of a search.
-/

namespace RecordQuery

/-- The first of the words that is shorter than the least length of a word. -/
def IsFirstShort (limits : Limits) (words : List String) (short : String) : Prop :=
  ∃ front back, words = front ++ short :: back ∧
    (∀ word ∈ front, limits.minWordSize.toNat ≤ word.length) ∧
      short.length < limits.minWordSize.toNat

/-- The comparison of the name with a word. -/
def wordFilter (word : String) : Filter :=
  .leaf ⟨"name", .containsText, .literal (.string word), false⟩

/-- What a keyword search asks for. -/
def wordsRequest (className keyword : String) : Request :=
  { Request.ofClass className with
    filters := some (.all ((Text.words keyword).map wordCriterion)) }

variable {schema : Schema} {limits : Limits} {className keyword : String} {model : ClassModel}

-- ---------------------------------------------------------------------------
-- The check of the words
-- ---------------------------------------------------------------------------

/-- The first word that is found too short has only long ones in front of it. -/
theorem shortWord?_eq_some {words : List String} {short : String} :
    shortWord? limits words = some short ↔ IsFirstShort limits words short := by
  simp only [shortWord?, List.find?_eq_some_iff_append, decide_eq_true_eq, Bool.not_eq_true',
    decide_eq_false_iff_not, Nat.not_lt, IsFirstShort]
  constructor
  · rintro ⟨hshort, front, back, hwords, hfront⟩
    exact ⟨front, back, hwords, hfront, hshort⟩
  · rintro ⟨front, back, hwords, hfront, hshort⟩
    exact ⟨hshort, front, back, hwords, hfront⟩

/-- If some word is too short, there is a first one. -/
theorem exists_isFirstShort {words : List String}
    (h : ∃ word ∈ words, word.length < limits.minWordSize.toNat) :
    ∃ short, IsFirstShort limits words short := by
  obtain ⟨word, hword, hlength⟩ := h
  have hsome : (shortWord? limits words).isSome = true :=
    List.find?_isSome.2 ⟨word, hword, decide_eq_true hlength⟩
  obtain ⟨short, hshort⟩ := Option.isSome_iff_exists.1 hsome
  exact ⟨short, shortWord?_eq_some.1 hshort⟩

/-- Where a word is too short, there are words. -/
theorem IsFirstShort.ne_nil {words : List String} {short : String}
    (h : IsFirstShort limits words short) : words ≠ [] := by
  obtain ⟨front, back, rfl, -⟩ := h
  simp

/-- A text is turned down for the first of its words that is too short. -/
theorem checkWords_of_isFirstShort {text short : String}
    (h : IsFirstShort limits (Text.words text) short) :
    checkWords limits text = reject (.shortWord short limits.minWordSize.toNat) := by
  have hshort := shortWord?_eq_some.2 h
  rw [checkWords]
  split
  · next hnone => exact absurd hnone h.ne_nil
  · rw [hshort]

/-- The words of an accepted text are accepted as texts. -/
theorem checkWords_of_mem_words {text word : String} (h : checkWords limits text = .ok ())
    (hword : word ∈ Text.words text) : checkWords limits word = .ok () := by
  obtain ⟨-, hlong⟩ := checkWords_eq_ok.1 h
  rw [checkWords_eq_ok, Text.words_of_mem_words hword]
  refine ⟨by simp, fun w hw => ?_⟩
  obtain rfl := List.mem_singleton.1 hw
  exact hlong w hword

-- ---------------------------------------------------------------------------
-- The search and the comparison
-- ---------------------------------------------------------------------------

/-- The records of a class have a name that is searched for words. -/
structure IsSearchable (schema : Schema) (className : String) (model : ClassModel) : Prop where
  model? : schema.model? className = some model
  name : ∃ def_, model.property? "name" = some def_ ∧ (def_.type = .string ∨ def_.type = .any)

/-- The name of a searchable class can be compared as text. -/
theorem IsSearchable.comparedType (h : IsSearchable schema className model) :
    ∃ type, model.comparedType "name" = .ok type ∧ (type = .string ∨ type = .any) := by
  obtain ⟨def_, hdef, htype⟩ := h.name
  refine ⟨def_.type, ?_, htype⟩
  have hplain : Dictionary.find? "name" identityAttributes = none := by decide
  rw [ClassModel.comparedType, hplain, ClassModel.requireProperty, hdef]
  rfl

/-- Of a text, the check of a full-text comparison looks at the words only. -/
theorem checkLiteral_text {property text : String} {type : PropertyType}
    (htype : type = .string ∨ type = .any) :
    checkLiteral limits property type .containsText (.string text) = checkWords limits text := by
  have hfits : Operator.fits .containsText type (.string text) = true := by
    simpa [Operator.fits] using htype
  rw [checkLiteral, if_pos hfits]

/-- The comparison of the name with a text checks its words. -/
theorem IsSearchable.ofLiteral (h : IsSearchable schema className model) (text : String)
    (negated : Bool) :
    Comparison.ofLiteral model limits "name" .containsText (.string text) negated =
      (checkWords limits text).map
        fun _ => ⟨"name", .containsText, .literal (.string text), negated⟩ := by
  obtain ⟨type, hcompared, htype⟩ := h.comparedType
  rw [Comparison.ofLiteral, hcompared]
  show (checkLiteral limits "name" type .containsText (.string text) >>= _) = _
  rw [checkLiteral_text htype]
  cases checkWords limits text <;> rfl

/-- A search by words checks them, and is turned down for the first short one, as a comparison with
that text is. -/
theorem IsSearchable.keywordRequest (h : IsSearchable schema className model)
    (hwords : Text.words keyword ≠ []) :
    keywordRequest schema limits className keyword =
      (checkWords limits keyword).map fun _ => wordsRequest className keyword := by
  obtain ⟨def_, hdef, -⟩ := h.name
  have hnonempty : (Text.words keyword).isEmpty = false := by simpa using hwords
  rw [RecordQuery.keywordRequest]
  dsimp only
  rw [hnonempty]
  cases hshort : shortWord? limits (Text.words keyword) with
  | some word =>
    rw [checkWords_of_isFirstShort (shortWord?_eq_some.1 hshort)]
    rfl
  | none =>
    -- a word list with no short word in it passes the very check that comparisons use
    have hchecked : checkWords limits keyword = .ok () :=
      checkWords_eq_ok.2 ⟨hwords, by simpa [shortWord?] using hshort⟩
    show (schema.require className >>= fun model =>
      model.requireProperty "name" >>= fun _ => .ok (wordsRequest className keyword)) = _
    rw [Schema.require, h.model?, hchecked]
    show (model.requireProperty "name" >>= _) = _
    rw [ClassModel.requireProperty, hdef]
    rfl

/-- A keyword without a word is turned down. -/
theorem keywordRequest_of_words_eq_nil (h : Text.words keyword = []) :
    RecordQuery.keywordRequest schema limits className keyword = reject .noKeyword := by
  rw [RecordQuery.keywordRequest, h]
  rfl

/-- When a search is accepted, and as which request. -/
theorem IsSearchable.keywordRequest_eq_ok (h : IsSearchable schema className model) {r : Request} :
    RecordQuery.keywordRequest schema limits className keyword = .ok r ↔
      checkWords limits keyword = .ok () ∧ wordsRequest className keyword = r := by
  by_cases hwords : Text.words keyword = []
  · rw [keywordRequest_of_words_eq_nil hwords, checkWords_eq_ok]
    simp [hwords, reject]
  · rw [h.keywordRequest hwords, map_eq_ok]
    constructor
    · rintro ⟨_, hchecked, hr⟩
      exact ⟨hchecked, hr⟩
    · rintro ⟨hchecked, hr⟩
      exact ⟨(), hchecked, hr⟩

/-- When the comparison with a text is accepted. -/
theorem IsSearchable.exists_ofLiteral_eq_ok (h : IsSearchable schema className model)
    {text : String} {negated : Bool} :
    (∃ c, Comparison.ofLiteral model limits "name" .containsText (.string text) negated = .ok c) ↔
      checkWords limits text = .ok () := by
  rw [h.ofLiteral]
  cases checkWords limits text <;> simp [Except.map]

-- ---------------------------------------------------------------------------
-- The query of a search
-- ---------------------------------------------------------------------------

/-- A word of a search is accepted as a comparison. -/
theorem IsSearchable.lower_wordCriterion (h : IsSearchable schema className model) {word : String}
    (hword : checkWords limits word = .ok ()) :
    Criterion.lower schema limits model (wordCriterion word) = .ok (wordFilter word) := by
  obtain ⟨type, hcompared, htype⟩ := h.comparedType
  refine Criterion.lower_literal_eq_ok.2 ⟨type, hcompared, ?_, rfl⟩
  rw [Option.getD_some, checkLiteral_text htype, hword]

/-- Every word of an accepted keyword is accepted once more. -/
theorem IsSearchable.lower_words (h : IsSearchable schema className model)
    (hkeyword : checkWords limits keyword = .ok ()) :
    Criterion.lower schema limits model (.all ((Text.words keyword).map wordCriterion)) =
      .ok (.all ((Text.words keyword).map wordFilter)) := by
  refine Criterion.lower_all_eq_ok.2 ⟨_, ?_, rfl⟩
  rw [List.forall₂_map_left_iff, List.forall₂_map_right_iff, List.forall₂_same]
  exact fun word hword => h.lower_wordCriterion (checkWords_of_mem_words hkeyword hword)

/-- The selection of a search. -/
def wordsSelection (model : ClassModel) (keyword : String) : Selection :=
  ⟨.named model.name, some (.all ((Text.words keyword).map wordFilter)), false, none⟩

/-- A filter with a word in it is not empty. -/
theorem isEmpty_all_words (hwords : Text.words keyword ≠ []) :
    (Filter.all ((Text.words keyword).map wordFilter)).isEmpty = false := by
  obtain ⟨word, rest, hcons⟩ := List.exists_cons_of_ne_nil hwords
  rw [hcons, List.map_cons, Filter.isEmpty, Filter.areEmpty, wordFilter, Filter.isEmpty]
  rfl

/-- The request of a search is accepted, with one comparison for each word and in the order of the
words. -/
theorem IsSearchable.ofRequest (h : IsSearchable schema className model)
    (hkeyword : checkWords limits keyword = .ok ()) :
    Query.ofRequest schema limits (wordsRequest className keyword) =
      .ok ⟨className, wordsSelection model keyword, {}, false⟩ := by
  have hselection : Selection.ofRequest schema limits (wordsRequest className keyword).inner =
      .ok (wordsSelection model keyword) := by
    refine (Selection.ofRequest_named_eq_ok rfl).2 ⟨rfl, model, h.model?, _,
      .some (h.lower_words hkeyword), none, rfl, ?_⟩
    rw [Request.keepFilter_some, isEmpty_all_words (checkWords_eq_ok.1 hkeyword).1]
    rfl
  refine Query.ofRequest_eq_ok.2 ⟨rfl, _, hselection, className, some model, ?_, rfl, none, rfl, rfl⟩
  show (schema.require className).map _ = _
  rw [Schema.require, h.model?]
  show Except.ok (model.name, some model) = _
  rw [Schema.name_of_model? h.model?]

/-- A word is compared as a literal. -/
theorem draft_wordFilter (word : String) :
    (wordFilter word).draft = some [.text "name CONTAINSTEXT ", .literal (.string word)] := by
  have htext : "name" ++ " " ++ Operator.containsText.keyword ++ " " = "name CONTAINSTEXT " := by
    decide +kernel
  rw [wordFilter, Filter.draft, Comparison.draft, Operand.draft, htext]
  rfl

/-- The comparisons with some words, numbered through. -/
theorem spellEach_draftEach_words (n : Nat) (words : List String) :
    Draft.spellEach n (Filter.draftEach (words.map wordFilter)) =
      (List.range' n words.length).map fun i => "name CONTAINSTEXT :" ++ Binder.name i := by
  induction words generalizing n with
  | nil => rfl
  | cons word rest ih =>
    have hcolon : "name CONTAINSTEXT :" = "name CONTAINSTEXT " ++ ":" := by decide +kernel
    rw [List.length_cons, List.range'_succ, List.map_cons, List.map_cons, ← ih (n + 1),
      Filter.draftEach, draft_wordFilter, hcolon]
    simp only [Option.toList_some, List.singleton_append, Draft.spellEach, Draft.spell,
      Draft.literals, List.length_singleton, String.append_empty, String.append_assoc]

/-- The values that a search binds are the words. -/
theorem literals_wordsSelection :
    (wordsSelection model keyword).literals = (Text.words keyword).map Value.string := by
  have hword : ∀ word, (wordFilter word).literals = [.string word] := fun word =>
    Filter.literals_literal ..
  rw [wordsSelection, Selection.literals_eq_of_named, Option.elim_some, Filter.literals_all,
    List.flatMap_map]
  simp only [hword]
  exact List.map_eq_flatMap.symm

/-- The text of a search: one comparison for each word, in order, and no deleted records. -/
def searchText (className : String) (words : List String) : String :=
  "SELECT * FROM " ++ className ++ " WHERE (" ++
    " AND ".intercalate
      (((List.range words.length).map fun i => "name CONTAINSTEXT :" ++ Binder.name i) ++
        ["deletedAt IS NULL"]) ++ ")"

/-- A junction of two texts or more stands in parentheses. -/
theorem junctionText_concat (joiner : String) {texts : List String} (h : texts ≠ [])
    (last : String) :
    junctionText joiner (texts ++ [last]) =
      some ("(" ++ (" " ++ joiner ++ " ").intercalate (texts ++ [last]) ++ ")") := by
  match texts with
  | [_] => rfl
  | _ :: _ :: _ => rfl

/-- The selection of a search has the text of that search: the words are numbered from zero, and the
condition that records are active comes last. -/
theorem spell_wordsSelection (hwords : Text.words keyword ≠ []) :
    (wordsSelection model keyword).draft.spell 0 =
      searchText model.name (Text.words keyword) := by
  have heffective : (wordsSelection model keyword).effectiveFilter =
      some (.all ((Text.words keyword).map wordFilter ++ [.active])) := rfl
  -- each word has its own number, and the deletion test stands behind them without one
  have htexts : Draft.spellEach 0
      (Filter.draftEach ((Text.words keyword).map wordFilter ++ [.active])) =
        ((List.range (Text.words keyword).length).map fun i => "name CONTAINSTEXT :" ++ Binder.name i)
          ++ ["deletedAt IS NULL"] := by
    rw [Filter.draftEach_append, Draft.spellEach_append, spellEach_draftEach_words,
      List.range_eq_range', Filter.draftEach, Filter.draft_active]
    rfl
  rw [wordsSelection, Selection.draft_named, ← wordsSelection, heffective, Traversal.spell_draft,
    Option.bind_some, Filter.draft, Draft.spell_junction, htexts,
    junctionText_concat _ (by simpa using hwords)]
  unfold Traversal.text Traversal.selectText searchText
  have hjoiner : " " ++ "AND" ++ " " = " AND " := by decide +kernel
  have hopening : " WHERE (" = " WHERE " ++ "(" := by decide +kernel
  simp only [hjoiner, hopening, String.append_assoc]

-- ---------------------------------------------------------------------------
-- Searches against comparisons
-- ---------------------------------------------------------------------------

/-- On a class whose name holds text, the keywords that a search accepts are those that a full-text
comparison of the name accepts, and a word that is too short is turned down by both in the same
words. The request of an accepted search is accepted, and its statement has one full-text comparison
of the name for each word, in order, with the word for its value. -/
theorem keywordRequest_iff_ofLiteral (h : IsSearchable schema className model) (keyword : String)
    (negated : Bool) :
    ((∃ r, keywordRequest schema limits className keyword = .ok r) ↔
      ∃ c, Comparison.ofLiteral model limits "name" .containsText (.string keyword) negated =
        .ok c) ∧
    ((∃ word ∈ Text.words keyword, word.length < limits.minWordSize.toNat) →
      ∃ short, IsFirstShort limits (Text.words keyword) short ∧
        keywordRequest schema limits className keyword =
          reject (.shortWord short limits.minWordSize.toNat) ∧
        Comparison.ofLiteral model limits "name" .containsText (.string keyword) negated =
          reject (.shortWord short limits.minWordSize.toNat)) ∧
    ∀ r, keywordRequest schema limits className keyword = .ok r →
      ∃ q, Query.ofRequest schema limits r = .ok q ∧
        q.toStatement.text = searchText model.name (Text.words keyword) ∧
        q.toStatement.params.Perm (Binder.numbered 0 ((Text.words keyword).map .string)) := by
  refine ⟨?_, ?_, ?_⟩
  -- both sides come down to the check of the words
  · rw [h.exists_ofLiteral_eq_ok]
    simp [h.keywordRequest_eq_ok]
  · intro hexists
    obtain ⟨short, hshort⟩ := exists_isFirstShort hexists
    refine ⟨short, hshort, ?_, ?_⟩
    · rw [h.keywordRequest hshort.ne_nil, checkWords_of_isFirstShort hshort]
      rfl
    · rw [h.ofLiteral, checkWords_of_isFirstShort hshort]
      rfl
  · intro r hr
    obtain ⟨hchecked, rfl⟩ := h.keywordRequest_eq_ok.1 hr
    refine ⟨_, h.ofRequest hchecked, ?_, ?_⟩
    · rw [Query.toStatement_eq_draft]
      exact spell_wordsSelection (checkWords_eq_ok.1 hchecked).1
    · rw [Query.toStatement_eq_draft, literals_wordsSelection]
      exact Binder.params_bindAll_perm {} _ fun i _ hmem => by simp [Dictionary.keys] at hmem

/-- Two names with blanks of several kinds, and one with a word of three letters. -/
theorem keywordRequest_iff_ofLiteral_people :
    ∃ model, IsSearchable peopleSchema "Person" model ∧
      (∃ r q, keywordRequest peopleSchema {} "Person" " Anna\t\u2003Maria" = .ok r ∧
        Query.ofRequest peopleSchema {} r = .ok q ∧
        q.toStatement.text = "SELECT * FROM Person WHERE (name CONTAINSTEXT :param0 AND " ++
          "name CONTAINSTEXT :param1 AND deletedAt IS NULL)" ∧
        q.toStatement.params.Perm [("param0", .string "Anna"), ("param1", .string "Maria")]) ∧
      keywordRequest peopleSchema {} "Person" "Anna von" = reject (.shortWord "von" 4) ∧
      Comparison.ofLiteral model {} "name" .containsText (.string "Anna von") false =
        reject (.shortWord "von" 4) := by
  have hperson : ∃ model, IsSearchable peopleSchema "Person" model :=
    ⟨_, rfl, _, rfl, .inl rfl⟩
  obtain ⟨model, hmodel⟩ := hperson
  have hname : model.name = "Person" := by
    obtain rfl := Option.some.inj hmodel.model?
    rfl
  have hwords : Text.words " Anna\t\u2003Maria" = ["Anna", "Maria"] := by decide +kernel
  have hshort : shortWord? {} (Text.words "Anna von") = some "von" := by decide +kernel
  refine ⟨model, hmodel, ?_, ?_⟩
  · obtain ⟨haccepted, -, hquery⟩ :=
      @keywordRequest_iff_ofLiteral _ {} _ _ hmodel " Anna\t\u2003Maria" false
    have hchecked : checkWords {} " Anna\t\u2003Maria" = .ok () := by
      rw [checkWords_eq_ok, hwords]
      decide
    obtain ⟨r, hr⟩ := haccepted.2 (hmodel.exists_ofLiteral_eq_ok.2 hchecked)
    obtain ⟨q, hq, htext, hparams⟩ := hquery r hr
    refine ⟨r, q, hr, hq, ?_, ?_⟩
    · rw [htext, hname, hwords]
      decide +kernel
    · rw [hwords] at hparams
      exact hparams
  · obtain ⟨-, hreport, -⟩ := @keywordRequest_iff_ofLiteral _ {} _ _ hmodel "Anna von" false
    obtain ⟨word, hword, hlength⟩ : ∃ word ∈ Text.words "Anna von", word.length < 4 := by
      decide +kernel
    obtain ⟨short, hfirst, hsearch, hcomparison⟩ := hreport ⟨word, hword, hlength⟩
    obtain rfl : "von" = short := Option.some.inj (hshort.symm.trans (shortWord?_eq_some.2 hfirst))
    exact ⟨hsearch, hcomparison⟩

end RecordQuery
