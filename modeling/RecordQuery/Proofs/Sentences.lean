import RecordQuery.Proofs.Ids
import RecordQuery.Proofs.Wrapping

/-!
# Queries for explicit records

No schema vouches for the strings of a request that names records by their ids. What keeps them out
of the statement is that ids are read and written anew and that other names must be plain. The
statement is therefore a sentence of a small grammar, whatever the request holds:

    [SELECT (count(*) AS count | projection) FROM (] SELECT * FROM [id, ...] [)]
      [ORDER BY name ASC|DESC, ...] [SKIP n] [LIMIT n]

The definitions of the first part are that grammar, written without any of the functions that
produce the text.

* `Sentence` — the sentences over a list of ids.
* `OuterOptions.sentence_wrapText` — options with plain names make a sentence.
* `Query.sentence_of_ofRequest` — the statement of an accepted request is one, and binds nothing.
-/

namespace RecordQuery

-- ---------------------------------------------------------------------------
-- The grammar
-- ---------------------------------------------------------------------------

/-- An ASCII letter or an underscore, followed by ASCII letters, digits and underscores. -/
def IsIdentifier (s : String) : Prop :=
  ∃ first rest, s.toList = first :: rest ∧ (first.isAlpha = true ∨ first = '_') ∧
    ∀ c ∈ rest, c.isAlphanum = true ∨ c = '_'

/-- The name of a column: an identifier or an identity attribute. -/
def IsColumn (s : String) : Prop := IsIdentifier s ∨ s = "@rid" ∨ s = "@class"

/-- One item or more, with commas between them. -/
inductive Listing (P : String → Prop) : String → Prop where
  | one {s} (h : P s) : Listing P s
  | more {s rest} (h : P s) (hrest : Listing P rest) : Listing P (s ++ ", " ++ rest)

/-- A level, and inside its group for linked records the same again, to some depth. -/
inductive Expansion (level : String) : String → Prop where
  | last : Expansion level level
  | deeper {inner} (h : Expansion level inner) :
      Expansion level (level ++ ", *:\x7b" ++ inner ++ "\x7d")

/-- Names, or the expansion of linked records with or without their history. -/
def IsProjection (s : String) : Prop :=
  Listing IsColumn s ∨ Expansion "*, @rid, @class" s ∨ Expansion "*, @rid, @class, !history" s

/-- The numbers of an id in plain decimal form. -/
def idText (id : Nat × Nat) : String := "#" ++ toString id.1 ++ ":" ++ toString id.2

/-- The first number fits in 32 bits and the second in 64 bits, with a sign. -/
def IsInRange (id : Nat × Nat) : Prop :=
  (id.1 : Int) ≤ Int32.maxValue.toInt ∧ (id.2 : Int) ≤ Int64.maxValue.toInt

/-- The records of a list of ids. -/
def recordRows (ids : List (Nat × Nat)) : String :=
  "SELECT * FROM [" ++ ", ".intercalate (ids.map idText) ++ "]"

/-- The records, their number, or a projection of them. -/
inductive Rows (ids : List (Nat × Nat)) : String → Prop where
  | plain : Rows ids (recordRows ids)
  | counted : Rows ids ("SELECT count(*) AS count FROM (" ++ recordRows ids ++ ")")
  | projected {projection} (h : IsProjection projection) :
      Rows ids ("SELECT " ++ projection ++ " FROM (" ++ recordRows ids ++ ")")

/-- An order by names, or none. -/
inductive OrderClause : String → Prop where
  | absent : OrderClause ""
  | order {keyword names} (hkeyword : keyword = "ASC" ∨ keyword = "DESC")
      (hnames : Listing (fun s => ∃ name, IsColumn name ∧ s = name ++ " " ++ keyword) names) :
      OrderClause (" ORDER BY " ++ names)

/-- A number of rows under a keyword, or none. -/
inductive RowsClause (keyword : String) : String → Prop where
  | absent : RowsClause keyword ""
  | rows (n : Nat) : RowsClause keyword (" " ++ keyword ++ " " ++ toString n)

/-- A query for the records of a list of ids. -/
inductive Sentence (ids : List (Nat × Nat)) : String → Prop where
  | mk {rows order skip limit} (hrows : Rows ids rows) (horder : OrderClause order)
      (hskip : RowsClause "SKIP" skip) (hlimit : RowsClause "LIMIT" limit) :
      Sentence ids (rows ++ order ++ skip ++ limit)

/-- Items with commas between them are a listing, if there are any. -/
theorem Listing.intercalate {P : String → Prop} {items : List String} (hne : items ≠ [])
    (h : ∀ s ∈ items, P s) : Listing P (", ".intercalate items) := by
  induction items with
  | nil => exact absurd rfl hne
  | cons first rest ih =>
    have hfirst := h first (List.mem_cons_self ..)
    cases rest with
    | nil =>
      rw [String.intercalate_singleton]
      exact .one hfirst
    | cons second others =>
      rw [String.intercalate_cons_cons]
      refine .more hfirst (ih ?_ fun s hs => h s (List.mem_cons_of_mem _ hs))
      exact List.cons_ne_nil second others

-- ---------------------------------------------------------------------------
-- Names
-- ---------------------------------------------------------------------------

namespace Projection

/-- A plain name is an identifier: letters, digits and underscores, and no digit in front. -/
theorem isIdentifier_of_isPlainName {name : String} (h : isPlainName name = true) :
    IsIdentifier name := by
  rw [isPlainName] at h
  split at h
  · cases h
  · next first rest hchars =>
    rw [Bool.and_eq_true, List.all_eq_true] at h
    obtain ⟨hall, hdigit⟩ := h
    have hvalid : ∀ c ∈ first :: rest, c.isAlphanum = true ∨ c = '_' := by
      intro c hc
      simpa using hall c hc
    refine ⟨first, rest, hchars, ?_, fun c hc => hvalid c (List.mem_cons_of_mem _ hc)⟩
    -- the first character is no digit, so it is a letter or the underscore
    have hfirst := hvalid first (List.mem_cons_self ..)
    simp only [Char.isAlphanum, Bool.or_eq_true] at hfirst
    rcases hfirst with (halpha | hnumber) | hunderscore
    · exact .inl halpha
    · rw [hnumber] at hdigit
      cases hdigit
    · exact .inr hunderscore

/-- An accepted list of names is a listing of columns. -/
theorem isColumn_of_ofNames {names : List String} {text : String} (h : ofNames names = .ok text) :
    names ≠ [] ∧ (∀ name ∈ names, IsColumn name) ∧ Listing IsColumn text := by
  obtain ⟨hne, hvalid, rfl⟩ := ofNames_eq_ok.1 h
  have hnames : ∀ name ∈ names, IsColumn name := by
    intro name hname
    exact (hvalid name hname).imp isIdentifier_of_isPlainName isIdentityAttribute_iff.1
  exact ⟨hne, hnames, .intercalate hne hnames⟩

/-- The nested projection expands a level to its depth. -/
theorem expansion_nested (withoutHistory : Bool) (depth : Nat) :
    Expansion (level withoutHistory) (nested withoutHistory depth) := by
  induction depth with
  | zero => exact .last
  | succ depth ih => exact .deeper ih

/-- The projection of neighbours is one of the two expansions. -/
theorem isProjection_nested (withoutHistory : Bool) (depth : Nat) :
    IsProjection (nested withoutHistory depth) := by
  have h := expansion_nested withoutHistory depth
  cases withoutHistory with
  | false => exact .inr (.inl h)
  | true => exact .inr (.inr h)

end Projection

-- ---------------------------------------------------------------------------
-- Options
-- ---------------------------------------------------------------------------

namespace OuterOptions

/-- The order part is a clause, or nothing. -/
theorem orderClause_orderText {options : OuterOptions}
    (h : ∀ name ∈ options.orderBy, IsColumn name) : OrderClause options.orderText := by
  rw [orderText]
  split
  · exact .absent
  · next hsome =>
    have hne : options.orderBy ≠ [] := fun h => hsome (List.isEmpty_iff.2 h)
    have hkeyword : ∀ direction : SortDirection,
        direction.keyword = "ASC" ∨ direction.keyword = "DESC" := by
      intro direction
      cases direction
      · exact .inl rfl
      · exact .inr rfl
    refine .order (hkeyword (options.orderByDirection.getD .ascending)) (.intercalate ?_ ?_)
    · exact mt List.map_eq_nil_iff.1 hne
    · intro s hs
      obtain ⟨name, hname, rfl⟩ := List.mem_map.1 hs
      exact ⟨name, h name hname, rfl⟩

/-- The skip part is a clause, or nothing. -/
theorem rowsClause_skipText (options : OuterOptions) : RowsClause "SKIP" options.skipText := by
  rw [skipText]
  split
  · exact .absent
  · exact .rows options.skip.toNat

/-- The limit part is a clause, or nothing. -/
theorem rowsClause_limitText (options : OuterOptions) : RowsClause "LIMIT" options.limitText := by
  rw [limitText]
  split
  · exact .absent
  · next limit _ => exact .rows limit.toNat

/-- The rows are projected as the options say. -/
theorem rows_projectText {options : OuterOptions} {ids : List (Nat × Nat)}
    (h : ∀ projection ∈ options.projection, IsProjection projection) :
    Rows ids (options.projectText (recordRows ids)) := by
  rw [projectText]
  split
  · exact .plain
  · next projection hnarrowing =>
    exact .projected (h projection (Option.filter_eq_some_iff.1 hnarrowing).1)

/-- Options with plain names around the records of ids make a sentence, each option with a clause of
its own, and in the order of the grammar. -/
theorem sentence_wrapText {options : OuterOptions} {ids : List (Nat × Nat)}
    (hprojection : ∀ projection ∈ options.projection, IsProjection projection)
    (horder : ∀ name ∈ options.orderBy, IsColumn name) :
    Sentence ids (options.wrapText (recordRows ids)) := by
  -- without options and for a count no clause follows the rows
  have halone : ∀ {rows}, Rows ids rows → Sentence ids rows := by
    intro rows hrows
    simpa using Sentence.mk hrows .absent .absent .absent
  rw [wrapText]
  split
  · exact halone .plain
  · split
    · exact halone .counted
    · exact .mk (rows_projectText hprojection) (orderClause_orderText horder)
        (rowsClause_skipText options) (rowsClause_limitText options)

end OuterOptions

-- ---------------------------------------------------------------------------
-- Accepted requests
-- ---------------------------------------------------------------------------

variable {schema : Schema} {limits : Limits}

/-- The ids of a request are read as numbers in range, and the text of the records has these. -/
theorem recordsText_of_readIds {texts : List String} {records : List RecordId}
    (h : Request.readIds texts = .ok records) :
    ∃ ids : List (Nat × Nat),
      List.Forall₂ (fun text id => RecordId.Writes text id.1 id.2) texts ids ∧
        (∀ id ∈ ids, IsInRange id) ∧ recordsText records = recordRows ids := by
  -- each text is spelled by the numbers of the record it names; the rows are written from these
  have hids : ∃ ids : List (Nat × Nat),
      List.Forall₂ (fun text id => RecordId.Writes text id.1 id.2) texts ids ∧
        (∀ id ∈ ids, IsInRange id) ∧
          records.map RecordId.text = ids.map idText := by
    rw [Request.readIds_eq_ok] at h
    induction h with
    | nil => exact ⟨[], .nil, by simp, rfl⟩
    | @cons text record texts records hread _ ih =>
      obtain ⟨cluster, position, hwrites, hcluster, hposition, rfl⟩ :=
        RecordId.parse?_persistent_eq_some.1 hread
      obtain ⟨ids, hrest, hrange, hsame⟩ := ih
      refine ⟨(cluster, position) :: ids, .cons hwrites hrest, ?_, ?_⟩
      · exact List.forall_mem_cons.2 ⟨⟨hcluster, hposition⟩, hrange⟩
      · rw [List.map_cons, List.map_cons, hsame, RecordId.text_ofNats hcluster hposition, idText]
  obtain ⟨ids, hwrites, hrange, hsame⟩ := hids
  refine ⟨ids, hwrites, hrange, ?_⟩
  unfold recordsText recordRows
  rw [hsame]

namespace Query

/-- Without a class the names of the order are plain. -/
theorem isColumn_of_checkOrder {names : List String}
    (h : checkOrder schema none names = .ok ()) : ∀ name ∈ names, IsColumn name := by
  rw [checkOrder] at h
  split at h
  · next hempty =>
    rw [List.isEmpty_iff.1 hempty]
    simp
  · obtain ⟨text, htext, -⟩ := map_eq_ok.1 h
    exact (Projection.isColumn_of_ofNames htext).2.1

/-- Without a class a projection lists plain names or expands linked records: there are no
properties that a path could be checked against. -/
theorem isProjection_of_projection? {r : Request} {projection : Option String}
    (h : projection? schema none r = .ok projection) : ∀ p ∈ projection, IsProjection p := by
  rw [projection?] at h
  -- names, the expansion of neighbours, or nothing
  split at h
  · obtain ⟨text, htext, rfl⟩ := map_eq_ok.1 h
    intro p hp
    obtain rfl := Option.some.inj hp
    exact .inl (Projection.isColumn_of_ofNames htext).2.2
  · obtain rfl := Except.ok.inj h
    intro p hp
    split at hp
    · cases hp
    · obtain rfl := Option.some.inj hp
      exact Projection.isProjection_nested ..
  · obtain rfl := Except.ok.inj h
    intro p hp
    cases hp

/-- The statement of an accepted request for explicit records is a sentence over the ids that the
request writes, in its order and in plain decimal form, and binds nothing. -/
theorem sentence_of_ofRequest {r : Request} {q : Query} {texts : List String}
    (htarget : r.target = .records texts) (h : ofRequest schema limits r = .ok q) :
    q.toStatement.params = [] ∧ ∃ ids : List (Nat × Nat), ids ≠ [] ∧
      List.Forall₂ (fun text id => RecordId.Writes text id.1 id.2) texts ids ∧
        (∀ id ∈ ids, IsInRange id) ∧ Sentence ids q.toStatement.text := by
  obtain ⟨-, selection, hselection, target, model, hmodel, horder, projection, hprojection, rfl⟩ :=
    ofRequest_eq_ok.1 h
  obtain ⟨-, -, hne, records, hrecords, rfl⟩ :=
    (Selection.ofRequest_records_eq_ok (r := r.inner) htarget).1 hselection
  obtain ⟨ids, hwrites, hrange, htext⟩ := recordsText_of_readIds hrecords
  -- ids belong to no class, so the names of the projection and of the order are plain
  have hmodel : model = none := by
    rw [htarget, readTarget] at hmodel
    exact (Prod.mk.inj (Except.ok.inj hmodel)).2.symm
  subst hmodel
  refine ⟨?_, ids, ?_, hwrites, hrange, ?_⟩
  · rw [toStatement, OuterOptions.wrap, Selection.toStatement, Selection.ofRecords,
      Selection.render_records]
  · rintro rfl
    exact hne (List.forall₂_nil_right_iff.1 hwrites)
  · rw [toStatement, OuterOptions.wrap, Selection.toStatement, Selection.ofRecords,
      Selection.render_records, htext]
    exact OuterOptions.sentence_wrapText (isProjection_of_projection? hprojection)
      (isColumn_of_checkOrder horder)

/-- Two records by ids with blanks and zeros, in an order and with a projection. -/
def paddedRequest : Request :=
  { Request.ofRecords [" #12:007 ", "#0:3\n"] with
    returnProperties := some ["name", "@rid"]
    orderBy := some ["_rank", "@class"]
    orderByDirection := some .descending
    skip := 2
    limit := some 10 }

/-- The ids are written without blanks and zeros, and every part of a sentence is there. -/
theorem sentence_of_paddedRequest :
    paddedRequest.target = .records [" #12:007 ", "#0:3\n"] ∧
      ∃ q, ofRequest {} {} paddedRequest = .ok q ∧
        q.toStatement.text =
          "SELECT name, @rid FROM (SELECT * FROM [#12:7, #0:3]) " ++
            "ORDER BY _rank DESC, @class DESC SKIP 2 LIMIT 10" ∧
        q.toStatement.params = [] ∧ ∃ ids, ids.length = 2 ∧ Sentence ids q.toStatement.text := by
  obtain ⟨hparams, ids, -, hwrites, -, hsentence⟩ :=
    @sentence_of_ofRequest {} {} paddedRequest _ [" #12:007 ", "#0:3\n"] rfl rfl
  exact ⟨rfl, _, rfl, by decide +kernel, hparams, ids, hwrites.length_eq.symm, hsentence⟩

end Query

end RecordQuery
