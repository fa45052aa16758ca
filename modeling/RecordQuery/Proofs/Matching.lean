import RecordQuery.Store.Match
import RecordQuery.Proofs.Acceptance
import RecordQuery.Proofs.Erasure
import RecordQuery.Proofs.Placeholders

/-!
# Matching by content and how links are written

Content names a linked record by its id, or holds the record itself with its id under `@rid`: an
*expanded* record. `Schema.contract` is the content with ids in the place of the expanded records
under the link properties of a class and in the lists of those that hold several.

Both contents are turned down with the same error, or both are accepted with one text. A record that
is the value of a property is compared by its id, however it is written. A list is compared as it
stands, with the expanded records in it, so the two queries bind the same values if and only if no
compared property has such a list.

* `Value.comparedValue_contract_eq_iff` — when a property is compared with the same value.
* `Query.matchQuery_congr` — contents that differ in what is listed have one text.
* `Query.matchQuery_contract` — content and its contraction.
-/

namespace RecordQuery

-- ---------------------------------------------------------------------------
-- Links written as ids
-- ---------------------------------------------------------------------------

namespace Value

/-- The record that a map stands for. -/
def expandedLink? : Value → Option RecordId
  | .map entries => linkAt? .persistent entries
  | _ => none

/-- The value, or its id if it is an expanded record. -/
def shortLink (value : Value) : Value := (value.expandedLink?.map ofRecordId).getD value

end Value

/-- Whether values are lists of links. -/
def PropertyType.listsLinks : PropertyType → Bool
  | .linkList | .linkSet => true
  | _ => false

/-- The value of a property of a type with ids in the place of expanded records. -/
def PropertyType.contract (type : PropertyType) (value : Value) : Value :=
  match value with
  | .list items => if type.listsLinks then .list (items.map Value.shortLink) else .list items
  | value => if type.isLink then value.shortLink else value

/-- The value under a name with ids in the place of expanded records. -/
def ClassModel.contractAt (model : ClassModel) (property : String) (value : Value) : Value :=
  ((model.property? property).map fun def_ => def_.type.contract value).getD value

/-- The content of a record of a class with ids in the place of expanded records. -/
def Schema.contract (schema : Schema) (className : String) (content : List (String × Value)) :
    List (String × Value) :=
  match schema.model? className with
  | none => content
  | some model => content.map fun (property, value) => (property, model.contractAt property value)

/-- Whether content lists an expanded record under a property of several links. -/
def ClassModel.listsExpanded (model : ClassModel) (content : List (String × Value))
    (property : String) : Bool :=
  match model.property? property, Dictionary.find? property content with
  | some def_, some (.list items) =>
    def_.type.listsLinks && items.any fun item => item.expandedLink?.isSome
  | _, _ => false

-- ---------------------------------------------------------------------------
-- Values that equality compares alike
-- ---------------------------------------------------------------------------

namespace Value

/-- Values that checking an equality does not tell apart: they are equal, or both are lists. -/
def Alike (v w : Value) : Prop := v = w ∨ v.kind = .list ∧ w.kind = .list

theorem eq_null_of_isNull {v : Value} (h : v.isNull = true) : v = .null := by
  cases v <;> first | rfl | cases h

/-- Alike values are of one kind. -/
theorem Alike.kind_eq {v w : Value} (h : Alike v w) : v.kind = w.kind := by
  rcases h with rfl | ⟨hv, hw⟩
  · rfl
  · rw [hv, hw]

theorem Alike.erase_eq {v w : Value} (h : Alike v w) : v.erase = w.erase := by
  rw [erase, h.kind_eq, ← erase]

theorem Alike.isNull_eq {v w : Value} (h : Alike v w) : v.isNull = w.isNull := by
  rw [← isNull_erase, h.erase_eq, isNull_erase]

theorem comparedValue_map (entries : List (String × Value)) :
    comparedValue (.map entries) = shortLink (.map entries) := by
  rw [comparedValue, shortLink, expandedLink?, link?]

/-- Writing a link as an id does not change what it is compared with: the id is what an expanded
record is compared with already. -/
theorem comparedValue_shortLink (v : Value) : comparedValue v.shortLink = comparedValue v := by
  cases v with
  | map entries =>
    rw [comparedValue_map, shortLink, expandedLink?]
    cases hlink : linkAt? .persistent entries with
    | none => simp [comparedValue, link?, hlink]
    | some id => rfl
  | null | bool _ | int _ | float _ | string _ | list _ => rfl

/-- A value is rewritten only if it is an expanded record. -/
theorem shortLink_eq_self_iff (v : Value) : v.shortLink = v ↔ v.expandedLink? = none := by
  cases v with
  | map entries =>
    rw [shortLink, expandedLink?]
    cases linkAt? .persistent entries with
    | none => simp
    | some id => simp [ofRecordId]
  | null | bool _ | int _ | float _ | string _ | list _ => exact iff_of_true rfl rfl

/-- A value other than a list is compared with the same value however a link is written. -/
theorem comparedValue_contract (type : PropertyType) {v : Value} (h : v.kind ≠ .list) :
    comparedValue (type.contract v) = comparedValue v := by
  have hcontract : type.contract v = if type.isLink then v.shortLink else v := by
    cases v with
    | list items => exact absurd rfl h
    | null | bool _ | int _ | float _ | string _ | map _ => rfl
  rw [hcontract]
  split
  · exact comparedValue_shortLink v
  · rfl

/-- Contracting a value changes what it is compared with at most inside a list. -/
theorem alike_comparedValue_contract (type : PropertyType) (v : Value) :
    Alike (comparedValue v) (comparedValue (type.contract v)) := by
  by_cases hlist : v.kind = .list
  · cases v with
    | list items =>
      refine .inr ⟨rfl, ?_⟩
      rw [PropertyType.contract]
      split <;> rfl
    | null | bool _ | int _ | float _ | string _ | map _ => cases hlist
  · exact .inl (comparedValue_contract type hlist).symm

/-- When a property is compared with the same value, whether links are expanded or not: unless it
lists links and an expanded record is among the items, for only lists are compared as they are. -/
theorem comparedValue_contract_eq_iff (type : PropertyType) (v : Value) :
    comparedValue (type.contract v) = comparedValue v ↔
      ∀ items, v = .list items → type.listsLinks = true →
        ∀ item ∈ items, item.expandedLink? = none := by
  -- lists are compared as they are, so only there the ids take the place of records
  cases v with
  | list items =>
    cases htype : type.listsLinks with
    | false => simp [PropertyType.contract, htype]
    | true =>
      have hitems : items.map shortLink = items ↔ ∀ item ∈ items, item.shortLink = item := by
        clear htype
        induction items with
        | nil => simp
        | cons item rest ih => simp [ih]
      simp [PropertyType.contract, htype, comparedValue, hitems, shortLink_eq_self_iff]
  | null | bool _ | int _ | float _ | string _ | map _ =>
    refine iff_of_true (comparedValue_contract type (by simp [kind])) ?_
    intro items heq
    cases heq

end Value

-- ---------------------------------------------------------------------------
-- Contents that are compared alike
-- ---------------------------------------------------------------------------

/-- The value that a property is compared with, if content has it. -/
def comparedAt (content : List (String × Value)) (property : String) : Option Value :=
  (Dictionary.find? property content).map comparedValue

/-- The value that is bound for a property. Absence is asked for without one. -/
def boundAt (content : List (String × Value)) (property : String) : Option Value :=
  (comparedAt content property).filter fun value => !value.isNull

/-- The criteria of content are equalities, one for each compared property that the content has. -/
theorem contentCriteria_eq (content : List (String × Value)) (properties : List String) :
    contentCriteria content properties = properties.filterMap fun property =>
      (comparedAt content property).map fun value =>
        .leaf ⟨property, some .equal, .literal value, false⟩ := by
  rw [contentCriteria]
  congr 1
  funext property
  rw [comparedAt, Option.map_map]
  rfl

/-- The literals of the criteria of content are the values that are bound, in the order of the
properties. -/
theorem literals_contentCriteria (content : List (String × Value)) (properties : List String) :
    (Criterion.all (contentCriteria content properties)).literals =
      properties.filterMap (boundAt content) := by
  rw [Criterion.literals_all, contentCriteria_eq]
  induction properties with
  | nil => rfl
  | cons property rest ih =>
    rw [List.filterMap_cons, List.filterMap_cons, boundAt]
    cases comparedAt content property with
    | none => exact ih
    | some value =>
      simp only [Option.map_some, List.flatMap_cons, ih, Criterion.literals_literal]
      cases hnull : value.isNull <;> simp [Option.filter, hnull]

/-- Contents that have the same properties, with values that are compared alike. -/
def AlikeContents (content other : List (String × Value)) : Prop :=
  ∀ property, Option.Rel Value.Alike (comparedAt content property) (comparedAt other property)

namespace AlikeContents

variable {content other : List (String × Value)}

/-- Contents that are alike have criteria of one shape. -/
theorem erase_contentCriteria (h : AlikeContents content other) (properties : List String) :
    (Criterion.all (contentCriteria content properties)).erase =
      (Criterion.all (contentCriteria other properties)).erase := by
  rw [Criterion.erase_all, Criterion.erase_all, contentCriteria_eq, contentCriteria_eq,
    List.map_filterMap, List.map_filterMap]
  congr 2
  funext property
  have hproperty := h property
  generalize comparedAt content property = o, comparedAt other property = o' at hproperty
  cases hproperty with
  | none => rfl
  | some halike =>
    simp only [Option.map_some, Criterion.erase_literal, halike.erase_eq]

/-- Contents that are alike bind values for the same properties. -/
theorem isSome_boundAt (h : AlikeContents content other) (property : String) :
    (boundAt content property).isSome = (boundAt other property).isSome := by
  have hproperty := h property
  rw [boundAt, boundAt]
  generalize comparedAt content property = o, comparedAt other property = o' at hproperty
  cases hproperty with
  | none => rfl
  | some halike => simp [Option.filter, halike.isNull_eq, apply_ite]

/-- A property is bound to the same value if it is compared with the same value. Nothing is bound
for null, and contents that are alike have their nulls in the same places. -/
theorem boundAt_eq_iff (h : AlikeContents content other) (property : String) :
    boundAt content property = boundAt other property ↔
      comparedAt content property = comparedAt other property := by
  have hproperty := h property
  rw [boundAt, boundAt]
  generalize comparedAt content property = o, comparedAt other property = o' at hproperty
  cases hproperty with
  | none => exact iff_of_true rfl rfl
  -- a null on either side is a null on both, and neither is bound
  | @some v w halike =>
    have hnull := halike.isNull_eq
    cases hw : w.isNull with
    | true =>
      rw [hw] at hnull
      rw [Value.eq_null_of_isNull hnull, Value.eq_null_of_isNull hw]
      exact iff_of_true rfl rfl
    | false =>
      rw [hw] at hnull
      simp [Option.filter, hnull, hw]

end AlikeContents

-- ---------------------------------------------------------------------------
-- Acceptance of contents
-- ---------------------------------------------------------------------------

variable {schema : Schema} {limits : Limits}

/-- Checking an equality does not look into lists. -/
theorem checkLiteral_equal_congr {v w : Value} (h : v.Alike w) (property : String)
    (type : PropertyType) :
    checkLiteral limits property type .equal v = checkLiteral limits property type .equal w := by
  rcases h with rfl | ⟨hv, hw⟩
  · rfl
  · cases v <;> cases hv
    cases w <;> cases hw
    rfl

/-- Alike values are accepted alike in an equality, or turned down with the same error. -/
theorem Criterion.outcome_lower_equal {model : ClassModel} {v w : Value} (h : v.Alike w)
    (property : String) :
    outcome (lower schema limits model (.leaf ⟨property, some .equal, .literal v, false⟩)) =
      outcome (lower schema limits model (.leaf ⟨property, some .equal, .literal w, false⟩)) := by
  simp only [lower, WantedComparison.lower, WantedOperand.lower, outcome_map, Comparison.ofLiteral,
    Option.getD_some]
  cases model.comparedType property with
  | error e => rfl
  | ok type =>
    show outcome (checkLiteral limits property type .equal v >>= _) =
      outcome (checkLiteral limits property type .equal w >>= _)
    rw [checkLiteral_equal_congr h]
    cases checkLiteral limits property type .equal w <;> rfl

/-- The criteria of alike contents are accepted alike. Their members are turned down at the same
place, as contents that are alike have the same properties. -/
theorem AlikeContents.outcome_lower {model : ClassModel} {content other : List (String × Value)}
    (h : AlikeContents content other) (properties : List String) :
    outcome (Criterion.lower schema limits model (.all (contentCriteria content properties))) =
      outcome (Criterion.lower schema limits model (.all (contentCriteria other properties))) := by
  rw [Criterion.lower, Criterion.lower, outcome_map, outcome_map, contentCriteria_eq,
    contentCriteria_eq]
  induction properties with
  | nil => rfl
  | cons property rest ih =>
    have hproperty := h property
    rw [List.filterMap_cons, List.filterMap_cons]
    generalize comparedAt content property = o, comparedAt other property = o' at hproperty
    cases hproperty with
    | none => exact ih
    | @some v w halike =>
      simp only [Option.map_some]
      rw [Criterion.outcome_lowerEach_cons, Criterion.outcome_lowerEach_cons,
        Criterion.outcome_lower_equal halike, ih]

-- ---------------------------------------------------------------------------
-- The query for content
-- ---------------------------------------------------------------------------

/-- The values that are bound are those of the numbers they are bound to. -/
theorem Binder.eq_of_params_bindAll_eq {b : Binder} {values others : List Value}
    (hlength : values.length = others.length)
    (h : (b.bindAll values).params = (b.bindAll others).params) : values = others := by
  refine List.ext_getElem hlength fun i hi hi' => ?_
  have hvalue := find?_bindAll b values hi
  have hother := find?_bindAll b others hi'
  rw [h, hother] at hvalue
  exact (Option.some.inj hvalue).symm

/-- Two selections from one list have the same entries if they keep the same places. -/
theorem filterMap_eq_iff_of_isSome {α β : Type} {f g : α → Option β}
    (h : ∀ a, (f a).isSome = (g a).isSome) (as : List α) :
    as.filterMap f = as.filterMap g ↔ ∀ a ∈ as, f a = g a := by
  induction as with
  | nil => simp
  | cons a rest ih =>
    rw [List.filterMap_cons, List.filterMap_cons, List.forall_mem_cons]
    have ha := h a
    cases hf : f a <;> cases hg : g a <;> simp [hf, hg, ih] at ha ⊢

/-- The request for the record with the given content. -/
def matchRequest (model : ClassModel) (content : List (String × Value)) (properties : List String)
    (history : Bool) : Request :=
  { Request.ofClass model.name with
    filters := some (.all (contentCriteria content properties)), history }

namespace Query

variable {className : String} {content other : List (String × Value)} {options : MatchOptions}
  {q q' : Query}

/-- The query for content looks its class up, picks the properties that are compared and lowers the
request for them. -/
theorem matchQuery_eq (schema : Schema) (limits : Limits) (className : String)
    (content : List (String × Value)) (options : MatchOptions) :
    matchQuery schema limits className content options =
      schema.require className >>= fun model =>
        comparedProperties model options.activeIndexOnly >>= fun properties =>
          ofRequest schema limits (matchRequest model content properties options.history) := rfl

/-- The query for content is made when its class is known, its properties can be picked and its
request is accepted. -/
theorem matchQuery_eq_ok :
    matchQuery schema limits className content options = .ok q ↔
      ∃ model, schema.model? className = some model ∧
        ∃ properties, comparedProperties model options.activeIndexOnly = .ok properties ∧
          ofRequest schema limits (matchRequest model content properties options.history) =
            .ok q := by
  simp only [matchQuery_eq, bind_eq_ok, Schema.require, orReject_eq_ok]

/-- Contents that are alike are turned down with the same error, if they are turned down. -/
theorem outcome_matchQuery_congr (h : AlikeContents content other) :
    outcome (matchQuery schema limits className content options) =
      outcome (matchQuery schema limits className other options) := by
  rw [matchQuery_eq, matchQuery_eq]
  cases schema.require className with
  | error e => rfl
  | ok model =>
    show outcome (comparedProperties model options.activeIndexOnly >>= _) =
      outcome (comparedProperties model options.activeIndexOnly >>= _)
    cases comparedProperties model options.activeIndexOnly with
    | error e => rfl
    | ok properties =>
      exact outcome_ofRequest_congr
        (r := { Request.ofClass model.name with history := options.history }) rfl
        fun _ => h.outcome_lower properties

/-- The requests for alike contents have one erasure. -/
theorem erase_matchRequest (h : AlikeContents content other) (model : ClassModel)
    (properties : List String) (history : Bool) :
    (matchRequest model content properties history).erase =
      (matchRequest model other properties history).erase := by
  have hcriteria := h.erase_contentCriteria properties
  rw [Request.erase_eq, Request.erase_eq]
  simp only [matchRequest, Option.map_some, hcriteria]

/-- The texts of accepted requests with one erasure. -/
theorem text_congr {r r' : Request} (hr : ofRequest schema limits r = .ok q)
    (hr' : ofRequest schema limits r' = .ok q') (h : r'.erase = r.erase) :
    q'.toStatement.text = q.toStatement.text := by
  have hselections : q'.selection.erase = q.selection.erase := by
    obtain ⟨-, selection, hselection, -, -, -, -, -, -, rfl⟩ := ofRequest_eq_ok.1 hr
    obtain ⟨-, selection', hselection', -, -, -, -, -, -, rfl⟩ := ofRequest_eq_ok.1 hr'
    refine Selection.erase_eq_of_ofRequest hselection hselection' ?_
    rw [Request.erase_inner, Request.erase_inner, h]
  have hspelled : q'.selection.draft.spell 0 = q.selection.draft.spell 0 := by
    rw [← Draft.spell_erase, ← Selection.draft_erase, hselections, Selection.draft_erase,
      Draft.spell_erase]
  rw [toStatement_eq_draft, toStatement_eq_draft, options_eq_of_erase_eq hr hr' h, hspelled]

/-- The values that the query for content binds. -/
theorem params_of_matchRequest {model : ClassModel} {properties : List String} {history : Bool}
    (h : ofRequest schema limits (matchRequest model content properties history) = .ok q) :
    q.toStatement.params = (Binder.bindAll {} (properties.filterMap (boundAt content))).params := by
  have hliterals : q.selection.literals = properties.filterMap (boundAt content) := by
    obtain ⟨-, selection, hselection, -, -, -, -, -, -, rfl⟩ := ofRequest_eq_ok.1 h
    rw [Selection.literals_of_ofRequest hselection, Request.literals_inner, Request.literals_eq,
      ← literals_contentCriteria]
    rfl
  rw [toStatement_eq_draft, hliterals]

/-- The queries for alike contents have one text. They bind the same values if every property that
is compared has the same value. -/
theorem matchQuery_congr (h : AlikeContents content other) {model : ClassModel}
    {properties : List String} (hmodel : schema.model? className = some model)
    (hproperties : comparedProperties model options.activeIndexOnly = .ok properties)
    (hq : matchQuery schema limits className content options = .ok q)
    (hq' : matchQuery schema limits className other options = .ok q') :
    q'.toStatement.text = q.toStatement.text ∧
      (q'.toStatement.params = q.toStatement.params ↔
        ∀ property ∈ properties, comparedAt content property = comparedAt other property) := by
  obtain ⟨found, hfound, names, hnames, hquery⟩ := matchQuery_eq_ok.1 hq
  obtain rfl := Option.some.inj (hfound.symm.trans hmodel)
  obtain rfl := Except.ok.inj (hnames.symm.trans hproperties)
  obtain ⟨found', hfound', names', hnames', hquery'⟩ := matchQuery_eq_ok.1 hq'
  obtain rfl := Option.some.inj (hfound'.symm.trans hmodel)
  obtain rfl := Except.ok.inj (hnames'.symm.trans hproperties)
  refine ⟨text_congr hquery hquery' (erase_matchRequest h _ _ _).symm, ?_⟩
  simp only [← h.boundAt_eq_iff]
  rw [params_of_matchRequest hquery, params_of_matchRequest hquery',
    ← filterMap_eq_iff_of_isSome h.isSome_boundAt]
  -- parameters are numbered from the same start, so they agree as maps when they agree as lists
  refine ⟨fun hparams => Binder.eq_of_params_bindAll_eq ?_ hparams.symm, fun hvalues => ?_⟩
  · simp only [List.length_filterMap_eq_countP, h.isSome_boundAt]
  · rw [hvalues]

end Query

-- ---------------------------------------------------------------------------
-- Contraction
-- ---------------------------------------------------------------------------

/-- Changing the values of a dictionary key by key changes what is found under a key. -/
theorem Dictionary.find?_map_values {α β : Type} (f : String → α → β) (key : String)
    (d : List (String × α)) :
    find? key (d.map fun (k, value) => (k, f k value)) = (find? key d).map (f key) := by
  induction d with
  | nil => rfl
  | cons entry rest ih =>
    obtain ⟨k, value⟩ := entry
    rw [List.map_cons, find?, find?, ih]
    by_cases hkey : k = key
    · rw [if_pos hkey, if_pos hkey, Option.map_some, hkey]
    · rw [if_neg hkey, if_neg hkey]

section Contraction

variable {className : String} {model : ClassModel} {content : List (String × Value)}

/-- A property of contracted content is compared with its contracted value. -/
theorem comparedAt_contract (hmodel : schema.model? className = some model) (property : String) :
    comparedAt (schema.contract className content) property =
      (Dictionary.find? property content).map fun value =>
        comparedValue (model.contractAt property value) := by
  rw [comparedAt, Schema.contract, hmodel]
  dsimp only
  rw [Dictionary.find?_map_values, Option.map_map]
  rfl

/-- Content and its contraction are compared alike. -/
theorem alike_contract (hmodel : schema.model? className = some model) :
    AlikeContents content (schema.contract className content) := by
  intro property
  rw [comparedAt_contract hmodel, comparedAt]
  cases Dictionary.find? property content with
  | none => exact .none
  | some value =>
    refine .some ?_
    unfold ClassModel.contractAt
    cases model.property? property with
    | none => exact .inl rfl
    | some def_ => exact Value.alike_comparedValue_contract def_.type value

/-- The lists of links that hold an expanded record are all that is compared otherwise. -/
theorem comparedAt_contract_eq_iff (hmodel : schema.model? className = some model)
    (property : String) :
    comparedAt content property = comparedAt (schema.contract className content) property ↔
      model.listsExpanded content property = false := by
  rw [comparedAt_contract hmodel, comparedAt, ClassModel.listsExpanded]
  cases hproperty : model.property? property with
  | none => simp [ClassModel.contractAt, hproperty]
  | some def_ =>
    cases Dictionary.find? property content with
    | none => simp
    | some value =>
      have hvalue := Value.comparedValue_contract_eq_iff def_.type value
      have hcontract : model.contractAt property value = def_.type.contract value := by
        rw [ClassModel.contractAt, hproperty]
        rfl
      rw [Option.map_some, Option.map_some, Option.some.injEq, eq_comm, hcontract, hvalue]
      -- only a list of links is left to tell the two contents apart
      cases value with
      | list items => simp
      | null | bool _ | int _ | float _ | string _ | map _ => simp

end Contraction

/-- Content and its contraction are turned down with the same error, or accepted with one text. The
two queries bind the same values if no property that is compared lists an expanded record. -/
theorem Query.matchQuery_contract (schema : Schema) (limits : Limits) (className : String)
    (content : List (String × Value)) (options : MatchOptions) :
    (∀ e, matchQuery schema limits className content options = .error e ↔
      matchQuery schema limits className (schema.contract className content) options =
        .error e) ∧
    ∀ q, matchQuery schema limits className content options = .ok q →
      ∃ q', matchQuery schema limits className (schema.contract className content) options =
          .ok q' ∧
        q'.toStatement.text = q.toStatement.text ∧
        (q'.toStatement.params = q.toStatement.params ↔
          ∀ model ∈ schema.model? className, ∀ properties,
            comparedProperties model options.activeIndexOnly = .ok properties →
              ∀ property ∈ properties, model.listsExpanded content property = false) := by
  cases hmodel : schema.model? className with
  | none =>
    -- an unknown class is turned down before the content is looked at
    have hfails : ∀ content, matchQuery schema limits className content options =
        reject (.unknownClass className) := by
      intro content
      rw [matchQuery_eq, Schema.require, hmodel]
      rfl
    refine ⟨fun e => by rw [hfails, hfails], fun q hq => ?_⟩
    rw [hfails] at hq
    cases hq
  | some model =>
    have halike : AlikeContents content (schema.contract className content) :=
      alike_contract hmodel
    have houtcome : outcome (matchQuery schema limits className content options) =
        outcome (matchQuery schema limits className (schema.contract className content) options) :=
      outcome_matchQuery_congr halike
    refine ⟨fun e => ?_, fun q hq => ?_⟩
    · rw [← outcome_eq_error, houtcome, outcome_eq_error]
    · rw [outcome_eq_ok.2 ⟨q, hq⟩] at houtcome
      -- the outcomes are the same, so the contraction is accepted with the content
      obtain ⟨q', hq'⟩ := outcome_eq_ok.1 houtcome.symm
      obtain ⟨found, hfound, properties, hproperties, -⟩ := matchQuery_eq_ok.1 hq
      obtain rfl := Option.some.inj (hfound.symm.trans hmodel)
      obtain ⟨htext, hparams⟩ := matchQuery_congr halike hfound hproperties hq hq'
      refine ⟨q', hq', htext, ?_⟩
      simp only [hparams, comparedAt_contract_eq_iff hfound, Option.mem_some_iff, forall_eq',
        hproperties, Except.ok.injEq]

/-- A person and the only friend, an expanded record with another one under `@rid`. -/
def contentOfFriend : List (String × Value) := [
  ("friends", .map [("@rid", .map [("@rid", .string "#5:1")]), ("name", .string "Bob")]),
  ("name", .string "Ann")]

/-- A single link may be written either way: with the friend as a record or as an id, the texts and
the parameters are the same. -/
theorem Query.matchQuery_contract_friend :
    peopleSchema.contract "Person" contentOfFriend =
        [("friends", .string "#5:1"), ("name", .string "Ann")] ∧
      ∃ q q', matchQuery peopleSchema {} "Person" contentOfFriend {} = .ok q ∧
        matchQuery peopleSchema {} "Person" (peopleSchema.contract "Person" contentOfFriend) {} =
          .ok q' ∧
        q'.toStatement.text = q.toStatement.text ∧
        q'.toStatement.params = q.toStatement.params := by
  obtain ⟨-, haccepted⟩ := matchQuery_contract peopleSchema {} "Person" contentOfFriend {}
  obtain ⟨q', hq', htext, hparams⟩ := haccepted _ rfl
  refine ⟨rfl, _, q', rfl, hq', htext, hparams.2 ?_⟩
  rintro model ⟨⟩ properties ⟨⟩
  decide

/-- A person and two friends, one of them expanded. -/
def contentOfFriends : List (String × Value) := [
  ("friends", .list [.map [("@rid", .string "#5:1")], .string "#5:2"]),
  ("name", .string "Ann")]

/-- A list of links is compared with the expanded records in it. -/
theorem Query.not_params_contract_friends :
    ∃ q q', matchQuery peopleSchema {} "Person" contentOfFriends {} = .ok q ∧
      matchQuery peopleSchema {} "Person" (peopleSchema.contract "Person" contentOfFriends) {} =
        .ok q' ∧
      q.toStatement.params =
        [("param0", .list [.map [("@rid", .string "#5:1")], .string "#5:2"]),
          ("param1", .string "Ann")] ∧
      q'.toStatement.params =
        [("param0", .list [.string "#5:1", .string "#5:2"]), ("param1", .string "Ann")] ∧
      q'.toStatement.params ≠ q.toStatement.params := by
  refine ⟨_, _, rfl, rfl, rfl, rfl, fun hsame => ?_⟩
  have hbound := congrArg (Dictionary.find? "param0") hsame
  cases hbound

end RecordQuery
