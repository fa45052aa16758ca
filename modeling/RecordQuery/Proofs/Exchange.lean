import RecordQuery.DisplayName
import RecordQuery.Proofs.Rejections
import RecordQuery.Proofs.Trimming
import RecordQuery.Store.Count
import RecordQuery.Store.Search
import RecordQuery.Store.User

/-!
# What sessions ask the store

A session is run against the answers of a store, whatever they are, and what it handed out can be
read off the run. This module says which statements each entry point hands out.

* `StoreM.Asks` — a session hands out given statements in turn and stops right behind the first
  answer that is a failure. The failure is its result: as it is if it already is a query error, and
  else as a database error with the statement.
* `StoreM.AsksAfter` — a session checks something first. Nothing is asked if that is turned down.
* `asks_countEach` — the loop over the classes to count asks for each in turn, and puts their counts
  together.
* `IsCount`, `userStatement_eq`, `LinkedLookup.statement_eq` — the texts that are sent for a count,
  for a user and for the names of linked records.
* `StoreM.asksAfter_entryPoints` — every entry point asks what its request stands for, after the
  request has been checked.
-/

namespace RecordQuery

-- ---------------------------------------------------------------------------
-- Statements in turn
-- ---------------------------------------------------------------------------

namespace StoreM

variable {α β : Type}

/-- A session hands out the statements, one after another, and makes an outcome of the rows that
come back. The first failure among the answers ends it. -/
structure Asks (m : StoreM α) (statements : List Statement)
    (outcome : List (List Record) → Result α) : Prop where
  answered : ∀ (rows : List (List Record)) (rest : List Answer), rows.length = statements.length →
    Session.run m.run (rows.map .ok ++ rest) = ⟨outcome rows, statements, rest⟩
  /-- A failure that is a query error is the result. -/
  raised : ∀ (rows : List (List Record)) (error : QueryError) (rest : List Answer),
    rows.length < statements.length →
      Session.run m.run (rows.map .ok ++ .error (.raised error) :: rest) =
        ⟨.error error, statements.take (rows.length + 1), rest⟩
  /-- Any other failure becomes a database error with the text of the statement. -/
  broken : ∀ (rows : List (List Record)) (message : String) (rest : List Answer)
    (h : rows.length < statements.length),
      Session.run m.run (rows.map .ok ++ .error (.broken message) :: rest) =
        ⟨.error (.database statements[rows.length].text message),
          statements.take (rows.length + 1), rest⟩

/-- A session that checks something first. What the check turns down is never asked for, and the
rejection is the result; what it lets through stands for statements that are handed out. -/
structure AsksAfter (m : StoreM α) (check : Result β) (statements : β → List Statement)
    (outcome : β → List (List Record) → Result α) : Prop where
  invalid : ∀ e, check = .error e → (∃ cause, e = .attribute cause) ∧ Asks m [] fun _ => .error e
  valid : ∀ b, check = .ok b → Asks m (statements b) (outcome b)

/-- Running a session that starts with a statement takes one answer, and goes on with the records or
ends with the failure. -/
theorem run_execute_bind (statement : Statement) (f : List Record → StoreM α) (answer : Answer)
    (rest : List Answer) :
    Session.run (execute statement >>= f).run (answer :: rest) =
      match answer with
      | .ok records =>
        let later := Session.run (f records).run rest
        { later with calls := statement :: later.calls }
      | .error failure => ⟨.error (.ofStore failure statement.text), [statement], rest⟩ := by
  cases answer <;> rfl

/-- A result that needs no store. -/
theorem asks_ofResult (result : Result α) : Asks (ofResult result) [] fun _ => result where
  answered rows rest hlength := by
    rw [List.length_eq_zero_iff.1 hlength]
    rfl
  raised rows error rest hlength := absurd hlength (Nat.not_lt_zero _)
  broken rows message rest hlength := absurd hlength (Nat.not_lt_zero _)

/-- A statement in front of others. -/
theorem asks_execute_bind {statement : Statement} {statements : List Statement}
    {f : List Record → StoreM α} {outcome : List Record → List (List Record) → Result α}
    (h : ∀ records, Asks (f records) statements (outcome records)) :
    Asks (execute statement >>= f) (statement :: statements)
      fun rows => outcome (rows.headD []) rows.tail where
  -- the first rows answer the statement in front, and the others what follows it
  answered rows rest hlength := by
    cases rows with
    | nil => cases hlength
    | cons first others =>
      rw [List.map_cons, List.cons_append, run_execute_bind]
      dsimp only
      rw [(h first).answered others rest (Nat.succ.inj hlength)]
      rfl
  raised rows error rest hlength := by
    cases rows with
    | nil => rfl
    | cons first others =>
      rw [List.map_cons, List.cons_append, run_execute_bind]
      dsimp only
      rw [(h first).raised others error rest (Nat.lt_of_succ_lt_succ hlength)]
      rfl
  broken rows message rest hlength := by
    cases rows with
    | nil => rfl
    | cons first others =>
      rw [List.map_cons, List.cons_append, run_execute_bind]
      dsimp only
      rw [(h first).broken others message rest (Nat.lt_of_succ_lt_succ hlength)]
      rfl

/-- The outcome counts only for as many rows as there are statements. -/
theorem Asks.congr {m : StoreM α} {statements : List Statement}
    {outcome other : List (List Record) → Result α} (h : Asks m statements outcome)
    (heq : ∀ rows, rows.length = statements.length → outcome rows = other rows) :
    Asks m statements other where
  answered rows rest hlength := by rw [h.answered rows rest hlength, heq rows hlength]
  raised := h.raised
  broken := h.broken

/-- One statement, and a result made of its rows. -/
theorem asks_once (statement : Statement) (f : List Record → Result α) :
    Asks (execute statement >>= fun records => ofResult (f records)) [statement]
      fun rows => f (rows.headD []) :=
  asks_execute_bind fun records => asks_ofResult (f records)

-- ---------------------------------------------------------------------------
-- Selecting
-- ---------------------------------------------------------------------------

theorem ofResult_ok_bind (a : α) (f : α → StoreM β) : (ofResult (.ok a) >>= f) = f a := rfl

theorem ofResult_error_bind (e : QueryError) (f : α → StoreM β) :
    (ofResult (.error e) >>= f) = ofResult (.error e) := rfl

theorem ofResult_bind (x : Result α) (f : α → Result β) :
    (ofResult x >>= fun a => ofResult (f a)) = ofResult (x >>= f) := by
  cases x <;> rfl

/-- A selection is a statement whose records are then settled without the store. -/
theorem select_bind (statement : Statement) (options : SelectOptions) (f : List Record → StoreM α) :
    (select statement options >>= f) =
      execute statement >>= fun records => ofResult (receive statement options records) >>= f := by
  refine congrArg (Session.ask statement) (funext fun answer => ?_)
  cases answer <;> rfl

/-- A selection asks once, and what becomes of the records is settled without the store. -/
theorem asks_select_bind (statement : Statement) (options : SelectOptions)
    (f : List Record → Result α) :
    Asks (select statement options >>= fun records => ofResult (f records)) [statement]
      fun rows => receive statement options (rows.headD []) >>= f := by
  rw [select_bind]
  simp only [ofResult_bind]
  exact asks_once statement fun records => receive statement options records >>= f

/-- The rows that are counted are those of the answer. -/
theorem receive_history (statement : Statement) (records : List Record) :
    receive statement { history := true } records = .ok records := by
  rw [receive, Record.trimAll_eq_self, checkCount]

end StoreM

-- ---------------------------------------------------------------------------
-- Counting
-- ---------------------------------------------------------------------------

/-- The statement that counts the records of a class: as a whole or by source, without the deleted
records unless the history is asked for. It binds nothing. -/
inductive IsCount : (bySource history : Bool) → String → Statement → Prop where
  | whole (className : String) : IsCount false false className
      ⟨"SELECT count(*) AS cnt FROM " ++ className ++ " WHERE deletedAt IS NULL", []⟩
  | wholeHistory (className : String) : IsCount false true className
      ⟨"SELECT count(*) AS cnt FROM " ++ className, []⟩
  | split (className : String) : IsCount true false className
      ⟨"SELECT source, count(*) AS cnt FROM " ++ className ++ " WHERE deletedAt IS NULL" ++
        " GROUP BY source", []⟩
  | splitHistory (className : String) : IsCount true true className
      ⟨"SELECT source, count(*) AS cnt FROM " ++ className ++ " GROUP BY source", []⟩

/-- The statements that are sent for counts are the ones that count. -/
theorem isCount_countStatement (className : String) (bySource history : Bool) :
    IsCount bySource history className (countStatement className bySource history) := by
  have hactive : " WHERE " ++ absenceText deletionTime = " WHERE deletedAt IS NULL" := by
    decide +kernel
  unfold countStatement
  cases bySource <;> cases history <;>
    simp only [hactive, String.append_empty, if_true, Bool.false_eq_true, if_false]
  · exact .whole className
  · exact .wholeHistory className
  · exact .split className
  · exact .splitHistory className

/-- The statements that count classes. -/
def countStatements (options : CountOptions) (classNames : List String) : List Statement :=
  classNames.map fun className => countStatement className options.bySource options.history

/-- There is one statement for each class, in the same order. -/
theorem forall₂_isCount (options : CountOptions) (classNames : List String) :
    List.Forall₂ (IsCount options.bySource options.history) classNames
      (countStatements options classNames) :=
  List.forall₂_map_right_iff.2 <| List.forall₂_same.2 fun className _ =>
    isCount_countStatement className options.bySource options.history

/-- Each class is counted by a statement of its own, in turn. -/
theorem asks_countEach (options : CountOptions) (classNames : List String)
    (counts : List (String × ClassCount)) :
    StoreM.Asks (countEach options counts classNames) (countStatements options classNames)
      fun rows => .ok <| Dictionary.extend counts <|
        classNames.zip (rows.map (ClassCount.ofRows options.bySource)) := by
  induction classNames generalizing counts with
  | nil => exact StoreM.asks_ofResult (.ok counts)
  | cons className rest ih =>
    rw [countEach, StoreM.select_bind]
    simp only [StoreM.receive_history, StoreM.ofResult_ok_bind]
    refine (StoreM.asks_execute_bind fun records => ih _).congr fun rows hlength => ?_
    cases rows with
    | nil => cases hlength
    | cons first others => rfl

/-- The classes that are counted when these are wanted: the terminal ones, or those that the listed
names stand for. -/
inductive CountsClasses (schema : Schema) : Option (List String) → List String → Prop where
  | terminal : CountsClasses schema none schema.terminalClasses
  | listed {names classNames : List String} :
      List.Forall₂ (fun name className => ∃ model, schema.model? name = some model ∧
        model.name = className) names classNames → CountsClasses schema (some names) classNames

section Classes

variable {schema : Schema}

/-- The first name is looked at first. -/
theorem countedClasses_cons (name : String) (names : List String) :
    countedClasses schema (some (name :: names)) =
      match schema.model? name with
      | none => reject (.unknownClass name)
      | some model => (countedClasses schema (some names)).map (model.name :: ·) := by
  rw [countedClasses, List.mapM_cons, Schema.require]
  cases schema.model? name <;> rfl

/-- The classes to count are looked up in their order, and all of them are known. -/
theorem CountsClasses.countedClasses_eq_ok {wanted : Option (List String)}
    {classNames : List String} (h : CountsClasses schema wanted classNames) :
    countedClasses schema wanted = .ok classNames := by
  cases h with
  | terminal => rfl
  | listed hnames =>
    induction hnames with
    | nil => rfl
    | cons hfirst _ ih =>
      obtain ⟨model, hmodel, rfl⟩ := hfirst
      rw [countedClasses_cons, hmodel]
      dsimp only
      rw [ih]
      rfl

/-- A name that the schema does not know is turned down; the first one is reported. -/
theorem countedClasses_of_unknown {names : List String} {unknown : String}
    (h : names.find? (fun name => (schema.model? name).isNone) = some unknown) :
    countedClasses schema (some names) = reject (.unknownClass unknown) := by
  induction names with
  | nil => cases h
  | cons name rest ih =>
    -- the first unknown name stops the look-up, so those behind it do not matter
    rw [List.find?_cons] at h
    rw [countedClasses_cons]
    cases hmodel : schema.model? name with
    | none =>
      rw [hmodel] at h
      rw [Option.some.inj h]
    | some model =>
      rw [hmodel] at h
      dsimp only
      rw [ih h]
      rfl

end Classes

-- ---------------------------------------------------------------------------
-- Entry points
-- ---------------------------------------------------------------------------

/-- The query of a keyword search. -/
def keywordQuery (schema : Schema) (limits : Limits) (className keyword : String)
    (history : Bool) : Result Query := do
  let request ← keywordRequest schema limits className keyword
  Query.ofRequest schema limits { request with history }

/-- The query of a list of ids. -/
def listQuery (schema : Schema) (limits : Limits) (ids : List String) (neighbors : Option UInt32)
    (history : Bool) : Result Query :=
  Query.ofRequest schema limits { Request.ofRecords ids with neighbors, history }

/-- The names of the linked records are asked for by their ids, in their order, and nothing is
bound. -/
theorem LinkedLookup.statement_eq (l : LinkedLookup) :
    l.statement = ⟨"SELECT @rid, displayName, name FROM (SELECT * FROM [" ++
      ", ".intercalate (l.ids.map RecordId.text) ++ "])", []⟩ := by
  -- a projection by itself leaves no clause behind the text
  have hprojected (text : String) :
      OuterOptions.wrapText { projection := some "@rid, displayName, name" } text =
        "SELECT @rid, displayName, name FROM (" ++ text ++ ")" := by
    have hopening : "SELECT " ++ "@rid, displayName, name" ++ " FROM (" =
        "SELECT @rid, displayName, name FROM (" := by decide +kernel
    show "SELECT " ++ "@rid, displayName, name" ++ " FROM (" ++ text ++ ")" ++ "" ++ "" ++ "" = _
    rw [hopening, String.append_empty, String.append_empty, String.append_empty]
  have hbrackets : "SELECT @rid, displayName, name FROM (" ++ "SELECT * FROM [" =
      "SELECT @rid, displayName, name FROM (SELECT * FROM [" := by decide +kernel
  have hclosing : "]" ++ ")" = "])" := by decide +kernel
  rw [statement, OuterOptions.wrap, Selection.toStatement_ofRecords]
  dsimp only
  rw [hprojected, ← String.append_assoc, ← String.append_assoc, hbrackets, String.append_assoc,
    hclosing]

namespace NamePlan

/-- The statements that a plan still needs: none, or the one that asks for the names of the linked
records. -/
def statements : NamePlan → List Statement
  | .resolved _ => []
  | .lookup l =>
    [⟨"SELECT @rid, displayName, name FROM (SELECT * FROM [" ++
      ", ".intercalate (l.ids.map RecordId.text) ++ "])", []⟩]

theorem statements_lookup (l : LinkedLookup) : statements (.lookup l) = [l.statement] := by
  rw [l.statement_eq, statements]

/-- The plan for a variant that has the links it needs. -/
theorem make_eq_lookup {schema : Schema} {className : String} {content : Record}
    {model : ClassModel} {kind : VariantKind} {type reference1 : RecordId}
    (hmodel : schema.model? className = some model) (hkind : VariantKind.ofClass? model = some kind)
    (htype : content.link? "type" = some type)
    (hreference1 : content.link? "reference1" = some reference1) :
    NamePlan.make schema className content =
      .ok (.lookup ⟨kind, type, reference1, content.link? "reference2", content⟩) := by
  -- a class of variants is no class of statements
  have hname : model.name ≠ "Statement" := by
    intro hname
    rw [VariantKind.ofClass?, hname] at hkind
    split at hkind <;> cases hkind
  rw [make, Schema.require, hmodel, orReject]
  show (if model.name = "Statement" then _ else _) = _
  rw [if_neg hname, hkind]
  dsimp only
  rw [requireLink, requireLink, htype, hreference1]
  rfl

/-- The name that a plan comes to, given the rows of its statement. -/
def outcome : NamePlan → List (List Record) → Result (Option String)
  | .resolved name, _ => .ok name
  | .lookup l, rows => do
    let linked ← receive l.statement { exactly := some l.ids.length, history := true }
      (rows.headD [])
    return some (← l.finish linked)

end NamePlan

section Rejected

variable {schema : Schema} {limits : Limits}

/-- A keyword search that fails before it is sent is turned down: nothing else can go wrong in
there. -/
theorem isRejected_keywordQuery (className keyword : String) (history : Bool) :
    FailsFor (fun _ => True) (keywordQuery schema limits className keyword history) := by
  unfold keywordQuery keywordRequest
  dsimp only
  refine FailsFor.bind ?_ fun request _ => Query.isRejected_ofRequest _
  split
  · exact .rejected trivial
  split
  · exact .rejected trivial
  refine (FailsFor.ofOption trivial _).bind fun model _ => ?_
  exact (FailsFor.ofOption trivial _).bind fun _ _ => .ok _

/-- A plan that fails is turned down: the class is unknown, or a link that the name needs is
missing. -/
theorem isRejected_make (className : String) (content : Record) :
    FailsFor (fun _ => True) (NamePlan.make schema className content) := by
  unfold NamePlan.make
  refine (FailsFor.ofOption trivial _).bind fun model _ => ?_
  split
  · exact .ok _
  split
  · exact .ok _
  refine (FailsFor.ofOption trivial _).bind fun type _ => ?_
  exact (FailsFor.ofOption trivial _).bind fun reference1 _ => .ok _

end Rejected

namespace StoreM

variable {schema : Schema} {limits : Limits}

/-- A session that starts with a check and goes on with what it lets through. -/
theorem asksAfter_of_bind {α β : Type} {m : StoreM α} {check : Result β} {f : β → StoreM α}
    {statements : β → List Statement} {outcome : β → List (List Record) → Result α}
    (hcheck : FailsFor (fun _ => True) check) (hm : m = ofResult check >>= f)
    (hf : ∀ b, check = .ok b → Asks (f b) (statements b) (outcome b)) :
    AsksAfter m check statements outcome where
  invalid e he := by
    obtain ⟨cause, hcause, -⟩ := hcheck e he
    rw [hm, he, ofResult_error_bind]
    exact ⟨⟨cause, hcause⟩, asks_ofResult (.error e)⟩
  valid b hb := by
    rw [hm, hb, ofResult_ok_bind]
    exact hf b hb

/-- A selection by itself asks once. -/
theorem asks_select (statement : Statement) (options : SelectOptions) :
    Asks (select statement options) [statement]
      fun rows => receive statement options (rows.headD []) :=
  asks_once statement (receive statement options)

/-- A keyword search is checked as a whole, the keyword and the query behind it, before it asks
once. -/
theorem asksAfter_selectByKeyword (className keyword : String) (options : SelectOptions) :
    AsksAfter (selectByKeyword schema limits className keyword options)
      (keywordQuery schema limits className keyword options.history) (fun q => [q.toStatement])
      fun q rows => receive q.toStatement options (rows.headD []) := by
  refine asksAfter_of_bind (isRejected_keywordQuery _ _ _) ?_
    fun q _ => asks_select q.toStatement options
  unfold selectByKeyword keywordQuery
  cases keywordRequest schema limits className keyword <;> rfl

/-- A list of ids is checked as a request for explicit records, and asks once for exactly as many
rows. -/
theorem asksAfter_selectList (ids : List String) (neighbors : Option UInt32)
    (options : SelectOptions) :
    AsksAfter (selectList schema limits ids neighbors options)
      (listQuery schema limits ids neighbors options.history) (fun q => [q.toStatement])
      fun q rows => receive q.toStatement { options with exactly := some ids.length }
        (rows.headD []) :=
  asksAfter_of_bind (Query.isRejected_ofRequest _) rfl fun q _ => asks_select q.toStatement _

/-- A display name is planned first. What is planned without linked records never reaches the store,
and a lookup asks for all of them at once. -/
theorem asksAfter_fetchDisplayName (className : String) (content : Record) :
    AsksAfter (fetchDisplayName schema className content) (NamePlan.make schema className content)
      NamePlan.statements NamePlan.outcome := by
  refine asksAfter_of_bind (isRejected_make _ _) rfl fun plan _ => ?_
  cases plan with
  | resolved name => exact asks_ofResult (.ok name)
  | lookup l =>
    have hfinish (rows : List Record) : (do return some (← ofResult (l.finish rows))) =
        ofResult (do return some (← l.finish rows)) :=
      ofResult_bind (l.finish rows) fun name => .ok (some name)
    dsimp only
    rw [NamePlan.statements_lookup]
    simp only [hfinish]
    exact asks_select_bind l.statement _ fun rows => do return some (← l.finish rows)

/-- The user is looked up by a name that is bound, and a deleted one is not found. -/
theorem userStatement_eq (name : String) :
    userStatement name = ⟨"SELECT *, groups:\x7b*, @rid, @class\x7d from User where name = :param0" ++
      " AND deletedAt IS NULL", [("param0", .string name)]⟩ := by
  have htext : "SELECT *, groups:\x7b*, @rid, @class\x7d from User where name = :" ++ Binder.name 0 ++
      " AND " ++ absenceText deletionTime =
        "SELECT *, groups:\x7b*, @rid, @class\x7d from User where name = :param0" ++
          " AND deletedAt IS NULL" := by decide +kernel
  rw [← htext]
  rfl

/-- A user is asked for once, and nothing is checked before. -/
theorem asks_selectUser (name : String) :
    Asks (selectUser name) [userStatement name]
      fun rows => onlyUser name (userStatement name) (rows.headD []) := by
  refine (asks_select_bind (userStatement name) { history := true }
    (onlyUser name (userStatement name))).congr fun rows _ => ?_
  rw [receive_history]
  rfl

/-- If a class to count is unknown, none of the others is counted either. -/
theorem asks_selectCounts_unknown {counting : CountOptions} {names : List String} {unknown : String}
    (hnames : counting.classNames = some names)
    (h : names.find? (fun name => (schema.model? name).isNone) = some unknown) :
    Asks (selectCounts schema counting) [] fun _ => reject (.unknownClass unknown) := by
  unfold selectCounts
  rw [hnames, countedClasses_of_unknown h]
  exact asks_ofResult (reject (.unknownClass unknown))

/-- Known classes are counted one after another, each by its own statement. -/
theorem asks_selectCounts {counting : CountOptions} {classNames : List String}
    (h : CountsClasses schema counting.classNames classNames) :
    Asks (selectCounts schema counting) (countStatements counting classNames) fun rows =>
      .ok <| Dictionary.ofList <| classNames.zip <|
        rows.map (ClassCount.ofRows counting.bySource) := by
  unfold selectCounts
  rw [h.countedClasses_eq_ok, ofResult_ok_bind]
  exact asks_countEach counting classNames []

/-- Every entry point checks first. What is turned down is not asked for; else a keyword search, a
list of ids, a display name that needs linked records and a user are asked for once, and each class
is counted once, in order. -/
theorem asksAfter_entryPoints (schema : Schema) (limits : Limits)
    (className keyword name : String) (ids : List String) (neighbors : Option UInt32)
    (content : Record) (options : SelectOptions) (counting : CountOptions) :
    AsksAfter (selectByKeyword schema limits className keyword options)
      (keywordQuery schema limits className keyword options.history) (fun q => [q.toStatement])
      (fun q rows => receive q.toStatement options (rows.headD [])) ∧
    AsksAfter (selectList schema limits ids neighbors options)
      (listQuery schema limits ids neighbors options.history) (fun q => [q.toStatement])
      (fun q rows => receive q.toStatement { options with exactly := some ids.length }
        (rows.headD [])) ∧
    AsksAfter (fetchDisplayName schema className content) (NamePlan.make schema className content)
      NamePlan.statements NamePlan.outcome ∧
    Asks (selectUser name)
      [⟨"SELECT *, groups:\x7b*, @rid, @class\x7d from User where name = :param0" ++
        " AND deletedAt IS NULL", [("param0", .string name)]⟩]
      (fun rows => onlyUser name (userStatement name) (rows.headD [])) ∧
    (∀ names unknown, counting.classNames = some names →
      names.find? (fun name => (schema.model? name).isNone) = some unknown →
        Asks (selectCounts schema counting) [] fun _ => reject (.unknownClass unknown)) ∧
    ∀ classNames, CountsClasses schema counting.classNames classNames →
      ∃ statements,
        List.Forall₂ (IsCount counting.bySource counting.history) classNames statements ∧
        Asks (selectCounts schema counting) statements fun rows =>
          .ok <| Dictionary.ofList <| classNames.zip <|
            rows.map (ClassCount.ofRows counting.bySource) := by
  refine ⟨asksAfter_selectByKeyword .., asksAfter_selectList .., asksAfter_fetchDisplayName .., ?_,
    fun _ _ => asks_selectCounts_unknown, fun classNames h => ?_⟩
  · rw [← userStatement_eq]
    exact asks_selectUser name
  · exact ⟨_, forall₂_isCount counting classNames, asks_selectCounts h⟩

/-- What each entry point sends, and where it stops: a short word is not searched for and an unknown
class not counted, and a store that fails is asked no further. -/
theorem asksAfter_entryPoints_people :
    let searched := "SELECT * FROM Person WHERE (name CONTAINSTEXT :param0 AND deletedAt IS NULL)"
    let named := "SELECT @rid, displayName, name FROM (SELECT * FROM [#1:0, #2:0])"
    let user := "SELECT *, groups:\x7b*, @rid, @class\x7d from User where name = :param0" ++
      " AND deletedAt IS NULL"
    let counted := "SELECT count(*) AS cnt FROM Knows WHERE deletedAt IS NULL"
    let variants : Schema := { classes := [
      ("CategoryVariant", { name := "CategoryVariant", inherits := ["Variant"] }),
      ("Variant", { name := "Variant", isAbstract := true })] }
    let content : Record :=
      { properties := [("reference1", .string "#2:0"), ("type", .string "#1:0")] }
    Session.run (selectByKeyword peopleSchema {} "Person" "Ann" {}).run [.ok []] =
      ⟨reject (.shortWord "Ann" 4), [], [.ok []]⟩ ∧
    Session.run (selectByKeyword peopleSchema {} "Person" "Anna" {}).run [.error (.broken "down")] =
      ⟨.error (.database searched "down"), [⟨searched, [("param0", .string "Anna")]⟩], []⟩ ∧
    (∀ error, Session.run (selectList peopleSchema {} ["#1:0", " #02:3"] none {}).run
      [.error (.raised error), .ok []] =
        ⟨.error error, [⟨"SELECT * FROM [#1:0, #2:3]", []⟩], [.ok []]⟩) ∧
    Session.run (fetchDisplayName variants "CategoryVariant" content).run
      [.error (.broken "down")] = ⟨.error (.database named "down"), [⟨named, []⟩], []⟩ ∧
    Session.run (selectUser "root").run [.error (.broken "down"), .ok []] =
      ⟨.error (.database user "down"), [⟨user, [("param0", .string "root")]⟩], [.ok []]⟩ ∧
    Session.run (selectCounts peopleSchema { classNames := some ["Person", "Nobody"] }).run
      [.ok []] = ⟨reject (.unknownClass "Nobody"), [], [.ok []]⟩ ∧
    Session.run (selectCounts peopleSchema { classNames := some ["Person", "Knows", "Person"] }).run
      [.ok [], .error (.broken "down"), .ok []] =
        ⟨.error (.database counted "down"),
          [⟨"SELECT count(*) AS cnt FROM Person WHERE deletedAt IS NULL", []⟩, ⟨counted, []⟩],
          [.ok []]⟩ := by
  intro searched named user counted variants content
  have hentry (schema : Schema) (className keyword : String) (names : List String) :=
    asksAfter_entryPoints schema {} className keyword "root" ["#1:0", " #02:3"] none content {}
      { classNames := some names }
  obtain ⟨hshort, -, -, -, hunknown, -⟩ :=
    hentry peopleSchema "Person" "Ann" ["Person", "Nobody"]
  obtain ⟨hkeyword, hlist, -, huser, -, hknown⟩ :=
    hentry peopleSchema "Person" "Anna" ["Person", "Knows", "Person"]
  obtain ⟨-, -, hname, -, -, -⟩ := hentry variants "CategoryVariant" "" []
  have hmodel : variants.model? "CategoryVariant" =
      some { name := "CategoryVariant", inherits := ["Variant"] } := rfl
  have htype : content.link? "type" = some ⟨1, 0⟩ := by decide
  have hreference1 : content.link? "reference1" = some ⟨2, 0⟩ := by decide
  have hreference2 : content.link? "reference2" = none := by decide
  have hplan := NamePlan.make_eq_lookup hmodel rfl htype hreference1
  rw [hreference2] at hplan
  have hnames := hname.valid _ hplan
  have hlisted : "SELECT @rid, displayName, name FROM (SELECT * FROM [" ++
      ", ".intercalate (List.map RecordId.text [⟨1, 0⟩, ⟨2, 0⟩]) ++ "])" = named := by
    decide +kernel
  have hsent : NamePlan.statements (.lookup ⟨.category, ⟨1, 0⟩, ⟨2, 0⟩, none, content⟩) =
      [⟨named, []⟩] := by
    rw [NamePlan.statements, ← hlisted]
    rfl
  rw [hsent] at hnames
  have hclasses : CountsClasses peopleSchema (some ["Person", "Knows", "Person"])
      ["Person", "Knows", "Person"] :=
    .listed (.cons ⟨_, rfl, rfl⟩ (.cons ⟨_, rfl, rfl⟩ (.cons ⟨_, rfl, rfl⟩ .nil)))
  obtain ⟨statements, hcounts, hasks⟩ := hknown _ hclasses
  refine ⟨(hshort.invalid _ rfl).2.answered [] [.ok []] rfl, ?_, fun error => ?_, ?_, ?_, ?_, ?_⟩
  · exact (hkeyword.valid _ rfl).broken [] "down" [] Nat.one_pos
  · exact (hlist.valid _ rfl).raised [] error [.ok []] Nat.one_pos
  · exact hnames.broken [] "down" [] Nat.one_pos
  · exact huser.broken [] "down" [.ok []] Nat.one_pos
  · exact (hunknown _ "Nobody" rfl rfl).answered [] [.ok []] rfl
  · -- which statements count these classes is known from their texts alone
    obtain ⟨person, _, hperson, hrest, rfl⟩ := List.forall₂_cons_left_iff.1 hcounts
    obtain ⟨knows, _, hknows, -, rfl⟩ := List.forall₂_cons_left_iff.1 hrest
    cases hperson
    cases hknows
    exact hasks.broken [[]] "down" [.ok []] (by simp)

end StoreM

end RecordQuery
