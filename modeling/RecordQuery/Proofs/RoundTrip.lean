import RecordQuery.Proofs.Criteria
import RecordQuery.Proofs.Encoding
import RecordQuery.Proofs.Levels

/-!
# Criteria read back

The decoder tells the forms of criteria apart by the keys of an object and by their number, so
criteria that were written could be read as something else: a property may be called `AND`, `OR` or
`target`, and a literal may be a map. They are not, but for comparisons that take the place of the
keywords (`WantedComparison.IsWritable`): those of a property `operator` or `negate`, and those with
a literal that looks like a nested request.

* `Criterion.ofJson?_leaf`, `Criterion.ofJson?_junction` — what is written of a criterion is read by
  the branch of the decoder that is meant for it.
* `Criterion.ofJson_toJson_eq_ok`, `Request.ofJson_toJson` — criteria and requests read back, with
  everything nested in them.
-/

namespace RecordQuery

-- ---------------------------------------------------------------------------
-- Comparisons at every level
-- ---------------------------------------------------------------------------

/-- The comparisons of a request and of all requests nested in it. -/
def Request.allComparisons (r : Request) : List WantedComparison :=
  r.levels.flatMap Request.comparisons

/-- The comparisons of a criterion and of all requests nested in it. -/
def Criterion.allComparisons (c : Criterion) : List WantedComparison :=
  c.comparisons ++ c.levels.flatMap Request.comparisons

/-- The comparisons of a request at all levels are those of its criteria. -/
theorem Request.allComparisons_eq (r : Request) :
    r.allComparisons = r.filters.elim [] Criterion.allComparisons := by
  rw [allComparisons, levels_eq, List.flatMap_cons, comparisons]
  cases r.filters <;> rfl

namespace Criterion

/-- The comparisons of several criteria are those of one after the other. -/
theorem comparisonsEach_eq_flatMap (children : List Criterion) :
    comparisonsEach children = children.flatMap comparisons := by
  induction children with
  | nil => rfl
  | cons child rest ih => rw [comparisonsEach, ih, List.flatMap_cons]

/-- The levels of several criteria are those of one after the other. -/
theorem levelsEach_eq_flatMap (children : List Criterion) :
    levelsEach children = children.flatMap levels := by
  induction children with
  | nil => rfl
  | cons child rest ih => rw [levelsEach, ih, List.flatMap_cons]

/-- A junction compares what its members compare, at their own level and below. -/
theorem allComparisons_join (junction : Junction) (children : List Criterion) :
    (junction.join children).allComparisons =
      children.flatMap comparisons ++ (children.flatMap levels).flatMap Request.comparisons := by
  cases junction <;>
    rw [Junction.join, allComparisons, comparisons, levels, comparisonsEach_eq_flatMap,
      levelsEach_eq_flatMap]

/-- What a criterion of a junction compares, the junction does. -/
theorem allComparisons_subset (junction : Junction) {children : List Criterion}
    {child : Criterion} (h : child ∈ children) :
    child.allComparisons ⊆ (junction.join children).allComparisons := by
  rw [allComparisons_join, allComparisons, List.append_subset]
  constructor
  · exact fun w hw => List.mem_append_left _ (List.mem_flatMap.2 ⟨child, h, hw⟩)
  · intro w hw
    obtain ⟨level, hlevel, hw⟩ := List.mem_flatMap.1 hw
    have hlevels : level ∈ children.flatMap levels := List.mem_flatMap.2 ⟨child, h, hlevel⟩
    exact List.mem_append_right _ (List.mem_flatMap.2 ⟨level, hlevels, hw⟩)

/-- A leaf with a literal is one comparison. -/
theorem allComparisons_literal (property : String) (operator : Option Operator) (value : Value)
    (negated : Bool) : (leaf ⟨property, operator, .literal value, negated⟩).allComparisons =
      [⟨property, operator, .literal value, negated⟩] := by
  rw [allComparisons, comparisons, levels, WantedComparison.levels, WantedOperand.levels]
  rfl

/-- A leaf with a request is one comparison and those of the request. -/
theorem allComparisons_nested (property : String) (operator : Option Operator) (r : Request)
    (negated : Bool) : (leaf ⟨property, operator, .request r, negated⟩).allComparisons =
      ⟨property, operator, .request r, negated⟩ :: r.allComparisons := by
  rw [allComparisons, comparisons, levels, WantedComparison.levels, WantedOperand.levels]
  rfl

end Criterion

/-- Whether a literal looks like a nested request. -/
def WantedOperand.looksNested : WantedOperand → Bool
  | .literal (.map entries) => Dictionary.contains "target" entries
  | _ => false

/-- A comparison that is not taken for something else: neither does its property have the name of a
modifier nor is its literal a map with a target. -/
structure WantedComparison.IsWritable (w : WantedComparison) : Prop where
  not_modifier : w.property ≠ "operator" ∧ w.property ≠ "negate"
  not_nested : w.operand.looksNested = false

instance (w : WantedComparison) : Decidable w.IsWritable :=
  decidable_of_iff ((w.property ≠ "operator" ∧ w.property ≠ "negate") ∧
    w.operand.looksNested = false) ⟨fun ⟨h, h'⟩ => ⟨h, h'⟩, fun ⟨h, h'⟩ => ⟨h, h'⟩⟩

theorem WantedComparison.IsWritable.isModifier_eq_false {w : WantedComparison}
    (h : w.IsWritable) : Criterion.isModifier w.property = false := by
  simp [Criterion.isModifier, h.not_modifier]

-- ---------------------------------------------------------------------------
-- Criteria
-- ---------------------------------------------------------------------------

namespace Criterion

/-- Only an object with a single member may be a junction. -/
theorem junction?_eq_none {members : List (String × Json)} (h : members.length ≠ 1) :
    junction? members = none := by
  match members with
  | [] => rfl
  | [_] => exact absurd rfl h
  | _ :: _ :: _ => rfl

/-- The operator is read back under its symbol, or as absent. -/
theorem operator?_of_find? {members : List (String × Json)} {operator : Option Operator}
    (h : Dictionary.find? "operator" members =
      some (Json.ofOption (fun o => .string o.symbol) operator)) :
    operator? members = .ok operator := by
  rw [operator?, h]
  cases operator with
  | none => rfl
  | some o =>
    dsimp only [Json.ofOption]
    rw [Operator.parse?_symbol]

/-- The negation is read back. -/
theorem negated?_of_find? {members : List (String × Json)} {negated : Bool}
    (h : Dictionary.find? "negate" members = some (.bool negated)) :
    negated? members = .ok negated := by
  rw [negated?, h]

section Property

variable {front back : List (String × Json)}
  (hmodifiers : ∀ member ∈ front ++ back, isModifier member.1 = true) {property : String}
  (hproperty : isModifier property = false) (written : Json)

include hmodifiers hproperty

/-- Among modifiers there is one property. -/
theorem filter_property : (front ++ (property, written) :: back).filter
    (fun (key, _) => !isModifier key) = [(property, written)] := by
  have hnone (part : List (String × Json)) (hpart : part ⊆ front ++ back) :
      part.filter (fun (key, _) => !isModifier key) = [] := by
    refine List.filter_eq_nil_iff.2 fun member hmember => ?_
    simp [hmodifiers member (hpart hmember)]
  rw [List.filter_append, List.filter_cons_of_pos (by simp [hproperty]),
    hnone front (List.subset_append_left ..), hnone back (List.subset_append_right ..)]
  rfl

/-- The property is found behind modifiers. -/
theorem property?_append {operand : WantedOperand}
    (hoperand : WantedOperand.ofJson? written = .ok operand) :
    property? (front ++ (property, written) :: back) = .ok (property, operand) := by
  have hfront : ∀ member ∈ front, isModifier member.1 = true :=
    fun member hmember => hmodifiers member (List.mem_append_left back hmember)
  clear hmodifiers
  induction front with
  | nil =>
    rw [List.nil_append, property?, if_neg (Bool.eq_false_iff.1 hproperty), hoperand]
    rfl
  | cons member rest ih =>
    rw [List.cons_append, property?, if_pos (hfront member (List.mem_cons_self ..))]
    exact ih fun other hother => hfront other (List.mem_cons_of_mem _ hother)

end Property

/-- An explicit comparison reads back if its operand does. Its members are sorted, so the property
stands between the modifiers, or in front of them or behind them. -/
theorem ofJson?_leaf {property : String} (hproperty : isModifier property = false)
    (operator : Option Operator) (negated : Bool) {written : Json} {operand : WantedOperand}
    (hoperand : WantedOperand.ofJson? written = .ok operand) :
    ofJson? (.ofMembers [("negate", .bool negated),
      ("operator", Json.ofOption (fun o => .string o.symbol) operator), (property, written)]) =
        .ok (.leaf ⟨property, operator, operand, negated⟩) := by
  let modifiers : List (String × Json) := [("negate", .bool negated),
    ("operator", Json.ofOption (fun o => .string o.symbol) operator)]
  obtain ⟨hoperator, hnegate⟩ : property ≠ "operator" ∧ property ≠ "negate" := by
    simpa [isModifier] using hproperty
  have hnew : property ∉ Dictionary.keys modifiers := by
    simp [modifiers, Dictionary.keys, hoperator, hnegate]
  -- only the place of the property is not known
  obtain ⟨front, back, hsplit, hinsert⟩ := Dictionary.exists_insert_eq written hnew
  have hmodifiers : ∀ member ∈ front ++ back, isModifier member.1 = true := by
    rw [← hsplit]
    simp [modifiers, isModifier]
  have hfind (key : String) (hkey : property ≠ key) :
      Dictionary.find? key (front ++ (property, written) :: back) =
        Dictionary.find? key modifiers := by
    rw [← hinsert, Dictionary.find?_insert, if_neg hkey]
  have hlength : (front ++ (property, written) :: back).length = 3 := by
    rw [← hinsert, (Dictionary.insert_perm hnew).length_eq]
    rfl
  have hany : (front ++ (property, written) :: back).any (fun (key, _) => isModifier key) = true :=
    List.any_eq_true.2 ⟨_, Dictionary.mem_of_find? (hfind "negate" hnegate), rfl⟩
  show ofJson? (.object (Dictionary.insert property written modifiers)) = _
  rw [hinsert, ofJson?, junction?_eq_none (by omega)]
  dsimp only
  rw [if_pos hany, modifiers?, operator?_of_find? (hfind "operator" hoperator),
    negated?_of_find? (hfind "negate" hnegate), filter_property hmodifiers hproperty,
    property?_append hmodifiers hproperty written hoperand]
  rfl

/-- A list of criteria reads back if each of them does. -/
theorem ofItems?_toItems {omitted : Request → String → Bool} {children : List Criterion}
    (h : ∀ child ∈ children, ofJson? (child.toJson omitted) = .ok child) :
    ofItems? (toItems omitted children) = .ok children := by
  induction children with
  | nil => rw [toItems, ofItems?]
  | cons child rest ih =>
    rw [toItems, ofItems?, h child (List.mem_cons_self ..),
      ih fun other hother => h other (List.mem_cons_of_mem _ hother)]
    rfl

/-- The object with the one key of a junction is read as that junction. -/
theorem ofJson?_junction (key : String) (junction : Junction) {items : List Json}
    {children : List Criterion} (hkey : ∀ value, junction? [(key, value)] = some junction)
    (h : ofItems? items = .ok children) :
    ofJson? (.ofMembers [(key, .array items)]) = .ok (junction.join children) := by
  show ofJson? (.object [(key, .array items)]) = _
  rw [ofJson?, hkey]
  dsimp only
  rw [junctionItems?, h]
  rfl

end Criterion

-- ---------------------------------------------------------------------------
-- Reading back
-- ---------------------------------------------------------------------------

/-- A literal that does not look like a request reads back. Only a map with a target looks like
one. -/
theorem WantedOperand.ofJson?_literal {value : Value}
    (h : looksNested (.literal value) = false) :
    ofJson? value.toJson = .ok (.literal value) := by
  have hvalue := value.ofJson_toJson
  cases value with
  | map entries =>
    have hkey : Dictionary.contains "target" entries = false := h
    rw [Value.toJson, ofJson?, Value.contains_toMembers, if_neg (Bool.eq_false_iff.1 hkey),
      Value.ofMembers_toMembers]
  | _ =>
    rw [ofJson?, hvalue]
    intro members hobject
    rw [Value.toJson] at hobject
    cases hobject

/-- A nested request reads back if its criteria do. -/
theorem WantedOperand.ofJson?_request {omitted : Request → String → Bool} {r : Request}
    (h : ∀ c ∈ r.filters, Criterion.ofJson? (c.toJson omitted) = .ok c) :
    ofJson? (r.toJson omitted) = .ok (.request r) := by
  rw [r.toJson_eq, ofJson?, if_pos (r.contains_target ..), Request.ofMembers?_fields _ h]

/-- What is written reads back, at every level. By induction over criteria and requests, where a
comparison has to be writable wherever it stands. -/
theorem Request.reads_toJson (omitted : Request → String → Bool) :
    (∀ c : Criterion, (∀ w ∈ c.allComparisons, w.IsWritable) →
      Criterion.ofJson? (c.toJson omitted) = .ok c) ∧
    ∀ r : Request, (∀ w ∈ r.allComparisons, w.IsWritable) →
      ∀ c ∈ r.filters, Criterion.ofJson? (c.toJson omitted) = .ok c := by
  -- all comparisons below a junction are writable, so those below each member are
  have hitems (junction : Criterion.Junction) (children : List Criterion)
      (ih : ∀ child ∈ children, (∀ w ∈ child.allComparisons, w.IsWritable) →
        Criterion.ofJson? (child.toJson omitted) = .ok child)
      (h : ∀ w ∈ (junction.join children).allComparisons, w.IsWritable) :
      Criterion.ofItems? (Criterion.toItems omitted children) = .ok children :=
    Criterion.ofItems?_toItems fun child hchild => ih child hchild fun w hw =>
      h w (Criterion.allComparisons_subset junction hchild hw)
  refine Request.induction ?literal ?nested ?all ?any ?request
  case literal =>
    intro property operator value negated h
    rw [Criterion.allComparisons_literal] at h
    have hwritable := h _ (List.mem_singleton_self _)
    rw [Criterion.toJson, WantedComparison.toJson, WantedOperand.toJson]
    exact Criterion.ofJson?_leaf hwritable.isModifier_eq_false operator negated
      (WantedOperand.ofJson?_literal hwritable.not_nested)
  case nested =>
    intro property operator request negated ih h
    rw [Criterion.allComparisons_nested] at h
    have hwritable := h _ (List.mem_cons_self ..)
    have hrequest := ih fun w hw => h w (List.mem_cons_of_mem _ hw)
    rw [Criterion.toJson, WantedComparison.toJson, WantedOperand.toJson]
    exact Criterion.ofJson?_leaf hwritable.isModifier_eq_false operator negated
      (WantedOperand.ofJson?_request hrequest)
  case all =>
    intro children ih h
    rw [Criterion.toJson]
    exact Criterion.ofJson?_junction "AND" .all (fun _ => rfl) (hitems .all children ih h)
  case any =>
    intro children ih h
    rw [Criterion.toJson]
    exact Criterion.ofJson?_junction "OR" .any (fun _ => rfl) (hitems .any children ih h)
  case request =>
    intro r ih h c hc
    rw [r.allComparisons_eq, Option.mem_def.1 hc] at h
    exact ih c hc h

/-- Criteria read back, whichever absent options are left out. -/
theorem Criterion.ofJson_toJson_eq_ok (omitted : Request → String → Bool) {c : Criterion}
    (h : ∀ w ∈ c.allComparisons, w.IsWritable) : ofJson (c.toJson omitted) = .ok c := by
  rw [ofJson, (Request.reads_toJson omitted).1 c h]

/-- Criteria with properties that are named like junctions and fields, and an empty junction. -/
def disguisedCriterion : Criterion := .any [
  .all [],
  .leaf ⟨"AND", none, .literal (.list [.int (-1), .map [("target", .string "Person")]]), true⟩,
  .leaf ⟨"target", some .isIn, .request { Request.ofRecords ["#12:3"] with
    filters := some (.all [.leaf ⟨"OR", none, .literal (.map [("operator", .string "~")]), false⟩])
    depth := some 2
    limit := some 18446744073709551615 }, false⟩]

/-- Each of the confusing parts is read back in its place, with some absent options written and some
left out. -/
theorem Criterion.ofJson_toJson_disguised :
    (∀ w ∈ disguisedCriterion.allComparisons, w.IsWritable) ∧
    ofJson (disguisedCriterion.toJson fun r field => r.depth.isSome && field != "edges") =
      .ok disguisedCriterion := by
  have hwritable : ∀ w ∈ disguisedCriterion.allComparisons, w.IsWritable := by decide
  exact ⟨hwritable, Criterion.ofJson_toJson_eq_ok _ hwritable⟩

/-- A request reads back, with everything nested in it. -/
theorem Request.ofJson_toJson (omitted : Request → String → Bool) {r : Request}
    (h : ∀ w ∈ r.allComparisons, w.IsWritable) : ofJson (r.toJson omitted) = .ok r := by
  have hfields := ofMembers?_fields (omitted r) ((Request.reads_toJson omitted).2 r h)
  rw [ofJson, r.toJson_eq, ofJson?, hfields, r.contains_target]
  rfl

end RecordQuery
