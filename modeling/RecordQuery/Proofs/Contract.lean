import RecordQuery.Proofs.Admission

/-!
# What operators ask for

An operator is meant for some types of properties and some operands: an order for single values of
types that have one, membership for lists, containment for collections, a full-text search for
words. Accepted comparisons keep to that, with one exception. A property of type `any` is at once a
collection and in order and accepts every value, so an order may compare it with a list or a map;
and a nested selection may stand with it under any operator, an order and a search among them.

* `Comparison.KeepsContract` — what the operator of a comparison asks for.
* `Comparison.Escapes` — the exception.
* `Comparison.Admitted.keepsContract_iff` — an admitted comparison keeps the contract unless it is
  the exception.
* `Criterion.contract_of_build` — and so at every level of accepted criteria.
* `Criterion.not_keepsContract_of_build` — the exception is accepted.
-/

namespace RecordQuery

/-- A value that is not null and does not hold others. -/
def Value.isScalar : Value → Bool
  | .bool _ | .int _ | .float _ | .string _ => true
  | .null | .list _ | .map _ => false

/-- A list, a map or the records of a selection. -/
def Operand.isCompound : Operand → Bool
  | .literal value => !value.isNull && !value.isScalar
  | .selection _ => true

namespace Comparison

/-- What the operator asks of the type of the property and of the operand. -/
structure KeepsContract (limits : Limits) (type : PropertyType) (c : Comparison) : Prop where
  order : c.operator.isRange = true → type.isOrderable = true ∧
    ∃ value, c.operand = .literal value ∧ value.isScalar = true ∧ type.accepts value = true
  list : c.operator.takesList = true →
    ∀ value, c.operand = .literal value → ∃ items, value = .list items
  items : c.operator = .isIn →
    ∀ items, c.operand = .literal (.list items) → ∀ item ∈ items, type.accepts item = true
  containment : c.operator = .contains ∨ c.operator = .containsAll ∨ c.operator = .containsAny →
    type.isIterable = true
  single : c.operator = .contains → ∀ items, c.operand ≠ .literal (.list items)
  search : c.operator = .containsText → (type = .string ∨ type = .any) ∧
    ∃ text, c.operand = .literal (.string text) ∧ Text.words text ≠ [] ∧
      ∀ word ∈ Text.words text, limits.minWordSize.toNat ≤ word.length

/-- An order or a search that type `any` lets through with an operand that it does not ask for. -/
def Escapes (type : PropertyType) (c : Comparison) : Prop :=
  type = .any ∧ (c.operator.isRange = true ∧ c.operand.isCompound = true ∨
    c.operator = .containsText ∧ ∃ s, c.operand = .selection s)

end Comparison

-- ---------------------------------------------------------------------------
-- Literals
-- ---------------------------------------------------------------------------

/-- A text is searched for if it has words and none of them is short. The check reports the first
short word, so it passes exactly if there is none. -/
theorem checkWords_eq_ok {limits : Limits} {text : String} :
    checkWords limits text = .ok () ↔
      Text.words text ≠ [] ∧ ∀ word ∈ Text.words text, limits.minWordSize.toNat ≤ word.length := by
  rw [checkWords]
  split
  -- a text without words is turned down before their lengths are looked at
  · next hnone => simp [hnone, reject]
  · next words hsome =>
    have hfound : shortWord? limits (Text.words text) = none ↔
        ∀ word ∈ Text.words text, limits.minWordSize.toNat ≤ word.length := by
      simp [shortWord?, List.find?_eq_none]
    rw [← hfound]
    split
    · next word hword => simp [hword, reject]
    · next hword =>
      have hne : Text.words text ≠ [] := fun h => hsome h
      simp [hword, hne]

/-- A literal is accepted if it fits the operator and, where it is a text that is searched for, its
words are long enough. -/
theorem checkLiteral_eq_ok {limits : Limits} {property : String} {type : PropertyType}
    {operator : Operator} {value : Value} :
    checkLiteral limits property type operator value = .ok () ↔
      operator.fits type value = true ∧ ∀ text, operator = .containsText → value = .string text →
        checkWords limits text = .ok () := by
  unfold checkLiteral
  by_cases hfits : operator.fits type value = true
  · rw [if_pos hfits, and_iff_right hfits]
    split
    · next text => simp
    · next hother => exact ⟨fun _ text hop hvalue => absurd hvalue (hother text hop), fun _ => rfl⟩
  · simp [hfits, reject]

namespace PropertyType

/-- A type with an order, `any` apart, accepts single values only. -/
theorem isScalar_of_accepts {type : PropertyType} {value : Value} (horder : type.isOrderable = true)
    (hany : type ≠ .any) (hnull : value.isNull = false) (h : type.accepts value = true) :
    value.isScalar = true := by
  cases value with
  | null => cases hnull
  | list items => cases type <;> simp_all [isOrderable, accepts, isIterable]
  | map entries => cases type <;> simp_all [isOrderable, accepts, isIterable, isLink]
  | _ => rfl

end PropertyType

namespace Operator

/-- An order that fits compares an orderable property with a value of its type. -/
theorem fits_of_isRange {operator : Operator} {type : PropertyType} {value : Value}
    (h : operator.isRange = true) (hfits : operator.fits type value = true) :
    type.isOrderable = true ∧ value.isNull = false ∧ type.accepts value = true := by
  cases operator <;> simp_all [isRange, fits]

/-- An operator that wants a list and fits has been given one. -/
theorem fits_of_takesList {operator : Operator} {type : PropertyType} {value : Value}
    (h : operator.takesList = true) (hfits : operator.fits type value = true) :
    ∃ items, value = .list items := by
  cases value with
  | list items => exact ⟨items, rfl⟩
  | _ => cases operator <;> simp_all [takesList, fits]

end Operator

-- ---------------------------------------------------------------------------
-- Admitted comparisons
-- ---------------------------------------------------------------------------

namespace Comparison

variable {limits : Limits} {model : ClassModel} {type : PropertyType} {property : String}
  {operator : Operator} {negated : Bool}

/-- A literal that fits its operator keeps the contract, unless it is one of those that the type
`any` lets through. Each clause of the contract is one of the checks in `fits`, but for two: that
the bound of an order is a scalar follows from an orderable type, and fails for `any` alone; and the
words of a search are checked by themselves. -/
theorem keepsContract_literal {value : Value} (hfits : operator.fits type value = true)
    (hwords : ∀ text, operator = .containsText → value = .string text →
      checkWords limits text = .ok ())
    (hescapes : ¬ Escapes type ⟨property, operator, .literal value, negated⟩) :
    KeepsContract limits type ⟨property, operator, .literal value, negated⟩ where
  order hrange := by
    obtain ⟨horder, hnull, haccepts⟩ := Operator.fits_of_isRange hrange hfits
    refine ⟨horder, value, rfl, ?_, haccepts⟩
    -- under `any` a compound bound would be one of the escapes
    by_cases hany : type = .any
    · by_contra hscalar
      have hcompound : (Operand.literal value).isCompound = true := by
        rw [Bool.not_eq_true] at hscalar
        rw [Operand.isCompound, hnull, hscalar]
        rfl
      exact hescapes ⟨hany, .inl ⟨hrange, hcompound⟩⟩
    · exact PropertyType.isScalar_of_accepts horder hany hnull haccepts
  list htakes found hfound := by
    obtain rfl := Operand.literal.inj hfound
    exact Operator.fits_of_takesList htakes hfits
  items hin items hitems := by
    obtain rfl : operator = .isIn := hin
    obtain rfl : value = .list items := Operand.literal.inj hitems
    have hall : items.all type.accepts = true := by
      simp only [Operator.fits, Bool.and_eq_true] at hfits
      exact hfits.2
    exact List.all_eq_true.1 hall
  containment hoperator := by
    rcases hoperator with rfl | rfl | rfl <;> cases value <;> simp_all [Operator.fits]
  single hoperator items hitems := by
    obtain rfl : operator = .contains := hoperator
    obtain rfl : value = .list items := Operand.literal.inj hitems
    simp [Operator.fits] at hfits
  search hoperator := by
    obtain rfl : operator = .containsText := hoperator
    cases value with
    | string text =>
      have htype : type = .string ∨ type = .any := by simpa [Operator.fits] using hfits
      have hchecked := checkWords_eq_ok.1 (hwords text rfl rfl)
      exact ⟨htype, text, rfl, hchecked⟩
    | _ => simp [Operator.fits] at hfits

/-- A selection that its operator allows keeps the contract under the same proviso: a type that is
not `any` allows it neither for an order nor for a search. -/
theorem keepsContract_selection {s : Selection} (hallowed : operator.allowsSelection type = true)
    (hescapes : ¬ Escapes type ⟨property, operator, .selection s, negated⟩) :
    KeepsContract limits type ⟨property, operator, .selection s, negated⟩ where
  order hrange := by
    -- the links allow no order, so what is left is the type that allows every operator
    have hany : type = .any := by
      by_contra hnot
      cases type <;> cases operator <;>
        simp_all [Operator.allowsSelection, Operator.isRange]
    exact absurd ⟨hany, .inl ⟨hrange, rfl⟩⟩ hescapes
  list _ _ hfound := by cases hfound
  items _ _ hfound := by cases hfound
  containment hoperator := by
    rcases hoperator with rfl | rfl | rfl <;>
      cases type <;> simp_all [Operator.allowsSelection, PropertyType.isIterable]
  single _ _ := by simp
  search hoperator := by
    obtain rfl : operator = .containsText := hoperator
    have hany : type = .any := by
      by_contra hnot
      cases type <;> simp_all [Operator.allowsSelection]
    exact absurd ⟨hany, .inr ⟨rfl, s, rfl⟩⟩ hescapes

/-- What escapes does not keep the contract. -/
theorem Escapes.not_keepsContract {c : Comparison} (h : c.Escapes type) :
    ¬ c.KeepsContract limits type := by
  intro hkeeps
  obtain ⟨-, ⟨hrange, hcompound⟩ | ⟨hsearch, s, hs⟩⟩ := h
  · obtain ⟨-, value, hvalue, hscalar, -⟩ := hkeeps.order hrange
    rw [hvalue, Operand.isCompound, hscalar] at hcompound
    simp at hcompound
  · obtain ⟨-, text, htext, -⟩ := hkeeps.search hsearch
    rw [hs] at htext
    cases htext

/-- An admitted comparison keeps the contract of its operator unless it escapes it. -/
theorem Admitted.keepsContract_iff {c : Comparison} (h : c.Admitted limits model type) :
    c.KeepsContract limits type ↔ ¬ c.Escapes type := by
  constructor
  · exact fun hkeeps hescapes => hescapes.not_keepsContract hkeeps
  · intro hescapes
    cases h with
    | literal _ hcheck =>
      obtain ⟨hfits, hwords⟩ := checkLiteral_eq_ok.1 hcheck
      exact keepsContract_literal hfits hwords hescapes
    | selection _ hallowed => exact keepsContract_selection hallowed hescapes

/-- For a comparison on records of a class, the property has a type, and nothing but the exception
breaks the contract. -/
def IsRuled (limits : Limits) (model : ClassModel) (c : Comparison) : Prop :=
  ∃ type, model.comparedType c.property = .ok type ∧
    (c.KeepsContract limits type ↔ ¬ c.Escapes type)

/-- An admitted comparison is ruled by the type under which it was admitted. -/
theorem isRuled_of_admitted {c : Comparison} (h : ∃ type, c.Admitted limits model type) :
    c.IsRuled limits model := by
  obtain ⟨type, hadmitted⟩ := h
  exact ⟨type, hadmitted.comparedType, hadmitted.keepsContract_iff⟩

end Comparison

-- ---------------------------------------------------------------------------
-- Accepted criteria
-- ---------------------------------------------------------------------------

namespace Criterion

variable {schema : Schema} {limits : Limits}

/-- Criteria are accepted on a class of the schema whose model accepts them. -/
theorem build_eq_ok {className : String} {c : Criterion} {f : Filter} :
    c.build schema limits className = .ok f ↔
      ∃ model, schema.model? className = some model ∧ c.lower schema limits model = .ok f := by
  rw [build, bind_eq_ok]
  simp only [Schema.require, orReject_eq_ok]

/-- Every comparison in accepted criteria, and in the requests nested in them at any level, keeps
the contract of its operator if and only if it is not an order of a property of type `any` with a
list, a map or a selection, nor a search in one for a selection. -/
theorem contract_of_build {className : String} {c : Criterion} {f : Filter}
    (h : c.build schema limits className = .ok f) :
    ∃ model, schema.model? className = some model ∧
      (∀ d ∈ f.comparisons, d.IsRuled limits model) ∧
      ∀ s ∈ f.levels, (∀ ids, s.target = .records ids → s.filter = none) ∧
        ∀ name, s.target = .named name → ∃ inner, schema.HasClass name inner ∧
          ∀ d ∈ s.filterComparisons, d.IsRuled limits inner := by
  obtain ⟨model, hmodel, hlower⟩ := build_eq_ok.1 h
  refine ⟨model, hmodel, fun d hd => ?_, fun s hs => ⟨fun ids hids => ?_, fun name hname => ?_⟩⟩
  · exact Comparison.isRuled_of_admitted (admitted_of_lower hlower d hd)
  · exact ((Selection.isAdmitted_of_lower hlower s hs).records ids hids).1
  · obtain ⟨inner, hclass, hadmitted⟩ :=
      (Selection.isAdmitted_of_lower hlower s hs).comparisons name hname
    exact ⟨inner, hclass, fun d hd => Comparison.isRuled_of_admitted (hadmitted d hd)⟩

/-- Notes, with a property that may hold anything. -/
def notesSchema : Schema where
  classes := [
    ("Note", {
      name := "Note"
      properties := [
        ("body", { type := .string }),
        ("rank", { type := .integer }),
        ("tags", { type := .embeddedSet }),
        ("value", { type := .any })] })]

/-- Notes about heat waves, among the first three, without two tags, and with a value under ten that
some urgent note has too. -/
def heatCriterion : Criterion :=
  .all [
    .leaf ⟨"body", some .containsText, .literal (.string "heat wave"), false⟩,
    .leaf ⟨"rank", some .atMost, .literal (.int 3), false⟩,
    .leaf ⟨"tags", none, .literal (.list [.string "summer", .string "city"]), true⟩,
    .leaf ⟨"value", some .less, .literal (.int 10), false⟩,
    .leaf ⟨"value", some .isIn, .request {
      Request.ofClass "Note" with
      filters := some (.leaf ⟨"tags", some .contains, .literal (.string "urgent"), false⟩) },
      false⟩]

/-- Five comparisons and a nested request. The one that compares a property of type `any` with a
number keeps the contract, since a number is a scalar. -/
theorem contract_of_heatCriterion :
    ∃ f model, heatCriterion.build notesSchema {} "Note" = .ok f ∧
      notesSchema.model? "Note" = some model ∧ f.comparisons.length = 5 ∧ f.levels.length = 1 ∧
      (∀ d ∈ f.comparisons, d.IsRuled {} model) ∧
      Comparison.KeepsContract {} .any ⟨"value", .less, .literal (.int 10), false⟩ := by
  obtain ⟨model, hmodel, hcomparisons, -⟩ :=
    @contract_of_build notesSchema {} "Note" heatCriterion _ rfl
  refine ⟨_, model, rfl, hmodel, rfl, rfl, hcomparisons, ?_⟩
  obtain ⟨type, htype, hkeeps⟩ := hcomparisons _ (.tail _ (.tail _ (.tail _ (.head _))))
  obtain rfl := Option.some.inj hmodel
  obtain rfl : PropertyType.any = type := Except.ok.inj htype
  refine hkeeps.2 fun hescapes => ?_
  obtain ⟨-, ⟨-, hcompound⟩ | ⟨hsearch, -⟩⟩ := hescapes
  · cases hcompound
  · cases hsearch

/-- A value under a list, and a search in a value for the records of a request. -/
def anyCriterion : Criterion :=
  .all [
    .leaf ⟨"value", some .less, .literal (.list [.int 1, .int 2]), false⟩,
    .leaf ⟨"value", some .containsText, .request (Request.ofClass "Note"), false⟩]

/-- What a property of type `any` accepts breaks the contract of the operator. -/
theorem not_keepsContract_of_build :
    ∃ f model, anyCriterion.build notesSchema {} "Note" = .ok f ∧
      notesSchema.model? "Note" = some model ∧ f.comparisons.length = 2 ∧
      ∀ d ∈ f.comparisons, model.comparedType d.property = .ok .any ∧
        ¬ d.KeepsContract {} .any := by
  refine ⟨_, _, rfl, rfl, rfl, fun d hd => ?_⟩
  have hlist : (Operand.literal (.list [.int 1, .int 2])).isCompound = true := rfl
  rcases hd with _ | ⟨_, _ | ⟨_, ⟨⟩⟩⟩
  · exact ⟨rfl, Comparison.Escapes.not_keepsContract ⟨rfl, .inl ⟨rfl, hlist⟩⟩⟩
  · exact ⟨rfl, Comparison.Escapes.not_keepsContract ⟨rfl, .inr ⟨rfl, _, rfl⟩⟩⟩

end Criterion

end RecordQuery
