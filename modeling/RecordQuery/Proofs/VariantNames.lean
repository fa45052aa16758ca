import Mathlib.Data.List.Nodup
import RecordQuery.Proofs.Exchange

/-!
# Names of variants

A variant is named after the records that it links to. Two of the links may lead to one record,
which is then asked for once and answered by one row, and the rows come back in any order. The
number of rows that is needed is that of the ids, and a row is looked for by its id, so the name is
always found and does not depend on the order.

* `LinkedLookup.nodup_ids`, `LinkedLookup.mem_ids` — which records are asked for.
* `LinkedLookup.finish_eq_ok` — a name is found whenever each of them has a row.
* `LinkedLookup.run_fetchDisplayName` — the name of a variant, whatever the order of the rows.
-/

namespace RecordQuery

-- ---------------------------------------------------------------------------
-- The plan
-- ---------------------------------------------------------------------------

/-- A variant class is one of two, and its kind tells which. -/
theorem VariantKind.exists_ofClass? {model : ClassModel} (hvariant : model.isA "Variant" = true)
    (hname : model.name = "CategoryVariant" ∨ model.name = "PositionalVariant") :
    ∃ kind, VariantKind.ofClass? model = some kind := by
  rw [VariantKind.ofClass?, hvariant]
  rcases hname with hname | hname
  · exact ⟨.category, by rw [hname]; rfl⟩
  · exact ⟨.positional, by rw [hname]; rfl⟩

-- ---------------------------------------------------------------------------
-- Labels
-- ---------------------------------------------------------------------------

/-- The labels of rows: a record is called by its display name, else by its name, else by its id. -/
def Labels (rows : List Record) (label : RecordId → String) : Prop :=
  ∀ row ∈ rows, ∀ id, row.id = some id →
    label id = (row.text? "displayName" <|> row.name?).getD id.text

variable {rows others : List Record} {label : RecordId → String}

theorem Labels.of_perm (h : Labels rows label) (hperm : others.Perm rows) : Labels others label :=
  fun row hmem => h row (hperm.subset hmem)

/-- Rows with different ids can be labelled, each id by the name in its row. -/
theorem exists_labels (h : (rows.map (·.id)).Nodup) : ∃ label, Labels rows label := by
  induction rows with
  | nil => exact ⟨RecordId.text, fun row hmem => absurd hmem List.not_mem_nil⟩
  | cons first rest ih =>
    obtain ⟨hnew, hrest⟩ := List.nodup_cons.1 h
    obtain ⟨label, hlabel⟩ := ih hrest
    refine ⟨fun id => if first.id = some id then
      (first.text? "displayName" <|> first.name?).getD id.text else label id, ?_⟩
    intro row hmem id hid
    rcases List.mem_cons.1 hmem with rfl | hmem
    · exact if_pos hid
    · -- a row behind the first has an id of its own
      have hne : first.id ≠ some id := fun heq =>
        hnew (List.mem_map.2 ⟨row, hmem, hid.trans heq.symm⟩)
      exact (if_neg hne).trans (hlabel row hmem id hid)

namespace LinkedLookup

variable {l : LinkedLookup} {id : RecordId}

-- ---------------------------------------------------------------------------
-- The linked records
-- ---------------------------------------------------------------------------

theorem nodup_ids : l.ids.Nodup := nodup_distinctFrom _ _

theorem head?_ids : l.ids.head? = some l.type := rfl

theorem mem_ids : id ∈ l.ids ↔ id = l.type ∨ id = l.reference1 ∨ l.reference2 = some id := by
  rw [ids, mem_distinct, List.mem_cons, List.mem_cons, Option.mem_toList]

-- ---------------------------------------------------------------------------
-- The rows of an answer
-- ---------------------------------------------------------------------------

/-- There is exactly one row for each linked record. -/
def IsAnswered (l : LinkedLookup) (rows : List Record) : Prop :=
  (rows.map (·.id)).Perm (l.ids.map some)

theorem IsAnswered.of_perm (h : l.IsAnswered rows) (hperm : others.Perm rows) :
    l.IsAnswered others :=
  (hperm.map _).trans h

theorem IsAnswered.nodup (h : l.IsAnswered rows) : (rows.map (·.id)).Nodup :=
  h.nodup_iff.2 (l.nodup_ids.map fun _ _ => Option.some.inj)

theorem IsAnswered.length_eq (h : l.IsAnswered rows) : rows.length = l.ids.length := by
  have hlength := List.Perm.length_eq h
  rwa [List.length_map, List.length_map] at hlength

theorem IsAnswered.exists_row (h : l.IsAnswered rows) (hid : id ∈ l.ids) :
    ∃ row ∈ rows, row.id = some id :=
  List.mem_map.1 (h.symm.subset (List.mem_map_of_mem hid))

/-- As many rows as there are linked records is what is needed. -/
theorem IsAnswered.receive_eq_ok (h : l.IsAnswered rows) :
    receive l.statement { exactly := some l.ids.length, history := true } rows = .ok rows := by
  rw [receive, Record.trimAll_eq_self, checkCount]
  simp [h.length_eq]

-- ---------------------------------------------------------------------------
-- The name
-- ---------------------------------------------------------------------------

/-- The name of a linked record with a row is its label. -/
theorem nameOf_eq_ok (h : Labels rows label) (hrow : ∃ row ∈ rows, row.id = some id) :
    l.nameOf rows id = .ok (label id) := by
  obtain ⟨row, hmem, hid⟩ := hrow
  rw [nameOf]
  cases hfind : rows.find? fun row => row.id = some id with
  | none => exact absurd (decide_eq_true hid) (List.find?_eq_none.1 hfind row hmem)
  | some found =>
    have hfound : found.id = some id := by simpa using List.find?_some hfind
    rw [h found (List.mem_of_find?_eq_some hfind) id hfound]

/-- A name is found when each linked record has a row, and it is made of the labels of these rows
alone. -/
theorem finish_eq_ok (h : Labels rows label)
    (hrows : ∀ id ∈ l.ids, ∃ row ∈ rows, row.id = some id) :
    l.finish rows =
      .ok (l.compose (label l.type) (label l.reference1) (l.reference2.map label)) := by
  have hname (id : RecordId) (hid : id ∈ l.ids) : l.nameOf rows id = .ok (label id) :=
    nameOf_eq_ok h (hrows id hid)
  have hname2 : l.nameOf? rows l.reference2 = .ok (l.reference2.map label) := by
    cases h2 : l.reference2 with
    | none => rfl
    | some id =>
      rw [nameOf?, hname id (mem_ids.2 (.inr (.inr h2)))]
      rfl
  rw [finish, hname _ (mem_ids.2 (.inl rfl)), hname _ (mem_ids.2 (.inr (.inl rfl))), hname2]
  rfl

/-- The name of a variant with the links it needs. Its linked records are asked for by one statement
that lists each of their ids once, the type first. If the answer has exactly one row for each,
whatever else the rows hold, a name is found: that of the labels of the rows, in whatever order
these come. -/
theorem run_fetchDisplayName {schema : Schema} {className : String} {content : Record}
    {model : ClassModel} {type reference1 : RecordId}
    (hmodel : schema.model? className = some model) (hvariant : model.isA "Variant" = true)
    (hname : model.name = "CategoryVariant" ∨ model.name = "PositionalVariant")
    (htype : content.link? "type" = some type)
    (hreference1 : content.link? "reference1" = some reference1) :
    ∃ l : LinkedLookup, NamePlan.make schema className content = .ok (.lookup l) ∧
      l.statement = ⟨"SELECT @rid, displayName, name FROM (SELECT * FROM [" ++
        ", ".intercalate (l.ids.map RecordId.text) ++ "])", []⟩ ∧
      l.ids.Nodup ∧ l.ids.head? = some type ∧
      (∀ id, id ∈ l.ids ↔
        id = type ∨ id = reference1 ∨ content.link? "reference2" = some id) ∧
      ∀ rows : List Record, l.IsAnswered rows →
        ∃ label, Labels rows label ∧ ∀ others : List Record, others.Perm rows → ∀ rest,
          Session.run (fetchDisplayName schema className content).run (.ok others :: rest) =
            ⟨.ok (some (l.compose (label type) (label reference1)
              ((content.link? "reference2").map label))), [l.statement], rest⟩ := by
  obtain ⟨kind, hkind⟩ := VariantKind.exists_ofClass? hvariant hname
  have hplan := NamePlan.make_eq_lookup hmodel hkind htype hreference1
  refine ⟨_, hplan, statement_eq _, nodup_ids, head?_ids, fun id => mem_ids, fun rows hrows => ?_⟩
  -- the labels are chosen before the order of the rows is known
  obtain ⟨label, hlabel⟩ := exists_labels hrows.nodup
  refine ⟨label, hlabel, fun others hperm rest => ?_⟩
  have hanswered := hrows.of_perm hperm
  have hasks := (StoreM.asksAfter_fetchDisplayName className content).valid _ hplan
  rw [NamePlan.statements_lookup] at hasks
  refine (hasks.answered [others] rest rfl).trans ?_
  rw [NamePlan.outcome, List.headD_cons, hanswered.receive_eq_ok]
  show Run.mk (Except.map some (finish _ others)) _ _ = _
  rw [finish_eq_ok (hlabel.of_perm hperm) fun id hid => hanswered.exists_row hid]
  rfl

/-- A variant whose type is its second reference, next to a deleted reference. -/
theorem run_fetchDisplayName_category :
    let schema : Schema := { classes := [
      ("CategoryVariant", { name := "CategoryVariant", inherits := ["Variant"] }),
      ("Variant", { name := "Variant", isAbstract := true })] }
    let content : Record :=
      { properties := [("reference1", .string "#2:0"),
          ("reference2", .map [("@rid", .string "#1:0")]), ("type", .string "#1:0")] }
    let rows : List Record :=
      [{ id := some ⟨2, 0⟩, deletedAt := some (.int 5), properties := [("name", .string "KRAS")] },
        { id := some ⟨1, 0⟩, properties := [("displayName", .string "mutation")] }]
    ∃ l : LinkedLookup, NamePlan.make schema "CategoryVariant" content = .ok (.lookup l) ∧
      l.ids = [⟨1, 0⟩, ⟨2, 0⟩] ∧
      l.statement = ⟨"SELECT @rid, displayName, name FROM (SELECT * FROM [#1:0, #2:0])", []⟩ ∧
      ∀ others : List Record, others.Perm rows →
        Session.run (fetchDisplayName schema "CategoryVariant" content).run [.ok others] =
          ⟨.ok (some "KRAS and mutation mutation"), [l.statement], []⟩ := by
  intro schema content rows
  have hmodel : schema.model? "CategoryVariant" =
      some { name := "CategoryVariant", inherits := ["Variant"] } := rfl
  have htype : content.link? "type" = some ⟨1, 0⟩ := by decide
  have hreference1 : content.link? "reference1" = some ⟨2, 0⟩ := by decide
  have hreference2 : content.link? "reference2" = some ⟨1, 0⟩ := by decide
  have hmake := NamePlan.make_eq_lookup hmodel rfl htype hreference1
  obtain ⟨l, hplan, hstatement, -, -, -, hnames⟩ :=
    run_fetchDisplayName hmodel rfl (.inl rfl) htype hreference1
  rw [hmake] at hplan
  cases hplan
  obtain ⟨label, hlabel, hrun⟩ := hnames rows (.swap ..)
  have hkras : label ⟨2, 0⟩ = "KRAS" := hlabel _ (List.mem_cons_self ..) _ rfl
  have hmutation : label ⟨1, 0⟩ = "mutation" :=
    hlabel _ (List.mem_cons_of_mem _ (List.mem_cons_self ..)) _ rfl
  refine ⟨_, hmake, by decide, ?_, fun others hperm => ?_⟩
  · have hlisted : "SELECT @rid, displayName, name FROM (SELECT * FROM [" ++
        ", ".intercalate (List.map RecordId.text [⟨1, 0⟩, ⟨2, 0⟩]) ++ "])" =
          "SELECT @rid, displayName, name FROM (SELECT * FROM [#1:0, #2:0])" := by decide +kernel
    rw [hstatement, ← hlisted]
    rfl
  · rw [hrun others hperm [], hreference2, Option.map_some, hmutation, hkras]
    rfl

end LinkedLookup

end RecordQuery
