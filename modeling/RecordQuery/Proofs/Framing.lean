import RecordQuery.Proofs.Wrapping

/-!
# Outer options leave the selection alone

The outer options of a request are written around the statement of its selection. Some options ask
for nothing: expansion to depth zero, an order by no names, a direction without an order. The others
all leave a mark, except that a count takes the place of the rest.

* `OuterOptions.wrapText_eq_self_iff` — options leave a text as it is only if they are passed
  through.
* `Query.isPassthrough_iff` — which accepted requests have such options.
* `Query.frames_of_ofRequest` — both together, and what does not depend on the options.
-/

namespace RecordQuery

-- ---------------------------------------------------------------------------
-- Options that leave a mark
-- ---------------------------------------------------------------------------

/-- A text between two others is the same text only if they are empty. -/
theorem append_append_eq_self_iff {front text back : String} :
    front ++ text ++ back = text ↔ front = "" ∧ back = "" := by
  constructor
  · intro h
    have hlength := congrArg String.length h
    rw [String.length_append, String.length_append] at hlength
    constructor
    · rw [← String.length_eq_zero_iff]
      omega
    · rw [← String.length_eq_zero_iff]
      omega
  · rintro ⟨rfl, rfl⟩
    rw [String.append_empty, String.empty_append]

namespace OuterOptions

/-- The order part is blank exactly when no property orders the rows, since a first property already
writes `ORDER BY`. -/
theorem orderText_eq_empty_iff {options : OuterOptions} :
    options.orderText = "" ↔ options.orderBy = [] := by
  rw [orderText]
  split
  · next hempty => simp [List.isEmpty_iff.1 hempty]
  · next hempty =>
    have hne : options.orderBy ≠ [] := fun h => hempty (List.isEmpty_iff.2 h)
    simp [hne]

/-- A skip of zero is not written, and no other number of rows is left out. -/
theorem skipText_eq_empty_iff {options : OuterOptions} :
    options.skipText = "" ↔ options.skip = 0 := by
  rw [skipText]
  split
  · next hzero => simp [hzero]
  · next hzero => simp [hzero]

/-- Only the missing limit leaves the limit part blank: a limit of zero is still written. -/
theorem limitText_eq_empty_iff {options : OuterOptions} :
    options.limitText = "" ↔ options.limit = none := by
  rw [limitText]
  split
  · next hnone => simp [hnone]
  · next hsome => simp [hsome]

/-- Options are passed through if none of them asks for anything. -/
theorem isPassthrough_iff {options : OuterOptions} :
    options.isPassthrough = true ↔ options.narrowing? = none ∧ options.orderBy = [] ∧
      options.skip = 0 ∧ options.limit = none ∧ options.count = false := by
  simp only [isPassthrough, Bool.and_eq_true, Option.isNone_iff_eq_none, Bool.not_eq_true',
    List.isEmpty_iff, beq_iff_eq]
  constructor
  · rintro ⟨⟨⟨⟨hnarrowing, hcount⟩, horder⟩, hskip⟩, hlimit⟩
    exact ⟨hnarrowing, horder, hskip, hlimit, hcount⟩
  · rintro ⟨hnarrowing, horder, hskip, hlimit, hcount⟩
    exact ⟨⟨⟨⟨hnarrowing, hcount⟩, horder⟩, hskip⟩, hlimit⟩

/-- Every option that asks for something leaves a mark: a statement is its own wrapping only if none
of them does. -/
theorem wrapText_eq_self_iff {options : OuterOptions} {text : String} :
    options.wrapText text = text ↔ options.isPassthrough = true := by
  -- a statement that is wrapped adds an opening or one of the options, so one part is not blank
  rw [wrapText_eq, append_append_eq_self_iff]
  constructor
  · rintro ⟨hopening, hclosing⟩
    by_contra hmarked
    rw [opening, if_neg hmarked] at hopening
    rw [closing, if_neg hmarked] at hclosing
    cases hcount : options.count with
    | true => simp [hcount] at hopening
    | false =>
      simp only [hcount, Bool.false_eq_true, if_false] at hopening hclosing
      cases hnarrowing : options.narrowing? with
      | some projection => simp [hnarrowing] at hopening
      | none =>
        simp only [hnarrowing, Option.isSome_none, Bool.false_eq_true, if_false,
          String.append_eq_empty_iff, true_and] at hclosing
        obtain ⟨⟨horder, hskip⟩, hlimit⟩ := hclosing
        exact hmarked (isPassthrough_iff.2 ⟨hnarrowing, orderText_eq_empty_iff.1 horder,
          skipText_eq_empty_iff.1 hskip, limitText_eq_empty_iff.1 hlimit, hcount⟩)
  · intro hpassed
    rw [opening, if_pos hpassed, closing, if_pos hpassed]
    exact ⟨rfl, rfl⟩

/-- A count takes the place of the other options. -/
theorem wrapText_of_count {options : OuterOptions} (h : options.count = true) (text : String) :
    options.wrapText text = "SELECT count(*) AS count FROM (" ++ text ++ ")" := by
  have hmarked : options.isPassthrough = false := by
    rw [isPassthrough, h]
    simp
  rw [wrapText, hmarked, h]
  rfl

end OuterOptions

-- ---------------------------------------------------------------------------
-- Projections that leave something out
-- ---------------------------------------------------------------------------

/-- A projection that writes a character other than the star is not the projection of all
properties. -/
theorem ne_everything_of_mem {text : String} {c : Char} (h : c ∈ text.toList) (hc : c ≠ '*') :
    text ≠ Projection.everything := by
  have hstar : Projection.everything.toList = ['*'] := by decide
  rintro rfl
  rw [hstar] at h
  exact hc (List.mem_singleton.1 h)

/-- Texts between commas are a star only if one of them is. -/
theorem intercalate_ne_everything {texts : List String} (h : Projection.everything ∉ texts) :
    ", ".intercalate texts ≠ Projection.everything := by
  match texts with
  | [] => decide
  | [only] =>
    rw [String.intercalate_singleton]
    exact fun heq => h (List.mem_singleton.2 heq.symm)
  | first :: second :: rest =>
    have hcomma : ',' ∈ (", ".intercalate (first :: second :: rest)).toList := by
      rw [String.intercalate_cons_cons]
      simp
    exact ne_everything_of_mem hcomma (by decide)

namespace PathTree

/-- An entry of the path tree writes its own name first, so it is the star only when its name is. -/
theorem renderEntry_ne_everything {name : String} (tree : PathTree)
    (h : name ≠ Projection.everything) : renderEntry name tree ≠ Projection.everything := by
  obtain ⟨wanted, children⟩ := tree
  have hgroup : ':' ∈ (name ++ ":\x7b" ++ ", ".intercalate (renderEach children) ++ "\x7d").toList := by
    simp
  rw [renderEntry]
  split
  · exact h
  · split
    · refine @ne_everything_of_mem _ ':' ?_ (by decide)
      rw [String.toList_append]
      exact List.mem_append_right _ hgroup
    · exact ne_everything_of_mem hgroup (by decide)

/-- The entries of a tree write the star only when one of their names is the star. -/
theorem everything_not_mem_renderEach {entries : List (String × PathTree)}
    (h : Projection.everything ∉ namesEach entries) :
    Projection.everything ∉ renderEach entries := by
  induction entries with
  | nil => simp [renderEach]
  | cons entry rest ih =>
    obtain ⟨name, tree⟩ := entry
    rw [namesEach, List.mem_cons, List.mem_append, not_or, not_or] at h
    rw [renderEach, List.mem_cons, not_or]
    exact ⟨(renderEntry_ne_everything tree (Ne.symm h.1)).symm, ih h.2.2⟩

/-- A whole path tree writes the star only when one of its names is the star. -/
theorem render_ne_everything {tree : PathTree} (h : Projection.everything ∉ tree.names) :
    tree.render ≠ Projection.everything := by
  obtain ⟨wanted, children⟩ := tree
  rw [names] at h
  rw [render]
  exact intercalate_ne_everything (everything_not_mem_renderEach h)

end PathTree

variable {schema : Schema} {limits : Limits}

namespace Projection

/-- The star is a property of no class when no declared name is the star. -/
theorem not_knows_everything (hnames : everything ∉ schema.names) :
    ¬ schema.Knows everything := by
  rintro (h | h)
  · exact hnames h
  · revert h
    decide

/-- A projection read from requested paths never is the star: each name in it is one the schema
knows, and the star is not known. -/
theorem ofPaths_ne_everything {key : String} {model : ClassModel} {paths : List String}
    {text : String} (hnames : everything ∉ schema.names) (hmodel : schema.model? key = some model)
    (h : ofPaths schema model paths = .ok text) : text ≠ everything := by
  obtain ⟨-, hchecked, rfl⟩ := ofPaths_eq_ok.1 h
  apply PathTree.render_ne_everything
  intro hmem
  obtain ⟨path, hpath, hpart⟩ := mem_names_treeOf hmem
  exact not_knows_everything hnames (knows_of_checkPath hmodel (hchecked path hpath) _ hpart)

/-- A list of identifiers is never the star, as the star is no identifier. -/
theorem ofNames_ne_everything {names : List String} {text : String}
    (h : ofNames names = .ok text) : text ≠ everything := by
  obtain ⟨-, hvalid, rfl⟩ := ofNames_eq_ok.1 h
  apply intercalate_ne_everything
  intro hmem
  have := hvalid everything hmem
  revert this
  decide

/-- The nested projection of neighbours writes its parts around the star and is longer than it. -/
theorem nested_ne_everything (withoutHistory : Bool) (depth : Nat) :
    nested withoutHistory depth ≠ everything := by
  have hlevel : ',' ∈ (level withoutHistory).toList := by cases withoutHistory <;> decide
  have hcomma : ',' ∈ (nested withoutHistory depth).toList := by
    cases depth with
    | zero => exact hlevel
    | succ depth => simp [nested, hlevel]
  exact ne_everything_of_mem hcomma (by decide)

end Projection

-- ---------------------------------------------------------------------------
-- Accepted requests
-- ---------------------------------------------------------------------------

/-- A request asks for nothing beside the rows of its selection. -/
structure Request.LeavesRows (r : Request) : Prop where
  returnProperties : r.returnProperties = none
  neighbors : r.neighbors = none ∨ r.neighbors = some 0
  orderBy : r.orderBy = none ∨ r.orderBy = some []
  skip : r.skip = 0
  limit : r.limit = none
  count : r.count = false

namespace Query

/-- The projection of a request is never the bare star, whether it comes from paths, from a list of
identifiers or from the neighbours. -/
theorem project_ne_everything {r : Request} {model : Option ClassModel} {names : List String}
    {target text : String} (hnames : Projection.everything ∉ schema.names)
    (hmodel : readTarget schema r.target = .ok (target, model))
    (h : project schema model names = .ok text) : text ≠ Projection.everything := by
  cases model with
  | none => exact Projection.ofNames_ne_everything h
  | some model =>
    obtain ⟨className, -, hfound⟩ := exists_of_readTarget hmodel
    exact Projection.ofPaths_ne_everything hnames hfound h

/-- The projection of an accepted request is never a star, as long as the schema has no such name.
So a projection that is asked for is always written around the statement. -/
theorem projection?_ne_everything {r : Request} {model : Option ClassModel}
    {target : String} {projection : Option String} (hnames : Projection.everything ∉ schema.names)
    (hmodel : readTarget schema r.target = .ok (target, model))
    (h : projection? schema model r = .ok projection) : projection ≠ some Projection.everything := by
  rw [projection?] at h
  split at h
  · obtain ⟨text, htext, rfl⟩ := map_eq_ok.1 h
    simpa using project_ne_everything hnames hmodel htext
  · obtain rfl := Except.ok.inj h
    split
    · simp
    · simpa using Projection.nested_ne_everything _ _
  · obtain rfl := Except.ok.inj h
    simp

/-- A request has a projection if it asks for properties or for an expansion. -/
theorem projection?_eq_none_iff {r : Request} {model : Option ClassModel}
    {projection : Option String} (h : projection? schema model r = .ok projection) :
    projection = none ↔ r.returnProperties = none ∧ (r.neighbors = none ∨ r.neighbors = some 0) := by
  rw [projection?] at h
  split at h
  · next names hproperties =>
    obtain ⟨text, -, rfl⟩ := map_eq_ok.1 h
    simp [hproperties]
  · next depth hproperties hneighbors =>
    obtain rfl := Except.ok.inj h
    simp [hproperties, hneighbors]
  · next hproperties hneighbors =>
    obtain rfl := Except.ok.inj h
    simp [hproperties, hneighbors]

/-- The options of an accepted request are passed through if it asks for nothing beside the rows. -/
theorem isPassthrough_iff {r : Request} {q : Query} (hnames : Projection.everything ∉ schema.names)
    (h : ofRequest schema limits r = .ok q) :
    q.options.isPassthrough = true ↔ r.LeavesRows := by
  obtain ⟨-, selection, -, target, model, hmodel, -, projection, hprojection, rfl⟩ :=
    ofRequest_eq_ok.1 h
  -- the wrapper compares the projection with the star: that comparison never finds it
  have hstar := projection?_ne_everything hnames hmodel hprojection
  have hnarrowing : projection.filter (· ≠ Projection.everything) = none ↔ projection = none := by
    cases projection with
    | none => simp
    | some text => simpa [Option.filter] using hstar
  have horder : r.orderBy.getD [] = [] ↔ r.orderBy = none ∨ r.orderBy = some [] := by
    cases r.orderBy <;> simp
  rw [OuterOptions.isPassthrough_iff, OuterOptions.narrowing?]
  dsimp only
  rw [hnarrowing, projection?_eq_none_iff hprojection, horder]
  constructor
  · rintro ⟨⟨hproperties, hneighbors⟩, horder, hskip, hlimit, hcount⟩
    exact ⟨hproperties, hneighbors, horder, hskip, hlimit, hcount⟩
  · rintro ⟨hproperties, hneighbors, horder, hskip, hlimit, hcount⟩
    exact ⟨⟨hproperties, hneighbors⟩, horder, hskip, hlimit, hcount⟩

/-- The statement of an accepted request has the parameters of its selection and the text of it in
one piece, with nothing around it exactly if the request asks for nothing beside the rows. The
selection is the same for every request that differs in outer options alone, and so is the count of
its rows. No class and no property of the schema is called by a star, as none is whose name is an
identifier. -/
theorem frames_of_ofRequest {r : Request} {q : Query}
    (hnames : Projection.everything ∉ schema.names) (h : ofRequest schema limits r = .ok q) :
    q.toStatement.params = q.selection.toStatement.params ∧
    (∃ front back, q.toStatement.text = front ++ q.selection.toStatement.text ++ back) ∧
    (q.toStatement.text = q.selection.toStatement.text ↔ r.LeavesRows) ∧
    ∀ r' q', ofRequest schema limits r' = .ok q' → r'.inner = r.inner →
      q'.selection.toStatement = q.selection.toStatement ∧
        (r.count = true → r'.count = true → q'.toStatement = q.toStatement) := by
  refine ⟨rfl, ⟨q.options.opening, q.options.closing, q.options.wrapText_eq _⟩, ?_, ?_⟩
  · rw [← isPassthrough_iff hnames h, ← OuterOptions.wrapText_eq_self_iff]
    exact Iff.rfl
  · intro r' q' h' hinner
    obtain ⟨-, selection, hselection, -, -, -, -, projection, -, rfl⟩ := ofRequest_eq_ok.1 h
    obtain ⟨-, selection', hselection', -, -, -, -, projection', -, rfl⟩ :=
      ofRequest_eq_ok.1 h'
    rw [hinner, hselection] at hselection'
    obtain rfl := Except.ok.inj hselection'
    refine ⟨rfl, fun hcount hcount' => ?_⟩
    rw [toStatement, toStatement, OuterOptions.wrap, OuterOptions.wrap,
      OuterOptions.wrapText_of_count hcount', OuterOptions.wrapText_of_count hcount]

/-- Options that ask for nothing: no expansion, and a direction for an order by nothing. -/
def idleRequest : Request :=
  { Request.ofClass "Person" with
    filters := some (.leaf ⟨"name", none, .literal (.string "Ann"), false⟩)
    neighbors := some 0
    orderBy := some []
    orderByDirection := some .descending }

/-- The number of the same rows, with a projection and a limit that a count does not heed. -/
def numberRequest : Request :=
  { idleRequest with
    neighbors := none
    returnProperties := some ["name", "friends.name"]
    limit := some 5
    count := true }

/-- The idle options leave the statement as it is, and counting the same rows wraps that very
statement. -/
theorem frames_of_ofRequest_idleRequest :
    Projection.everything ∉ peopleSchema.names ∧
      ∃ q number, ofRequest peopleSchema {} idleRequest = .ok q ∧
        ofRequest peopleSchema {} numberRequest = .ok number ∧
        q.toStatement.text = q.selection.toStatement.text ∧
        number.toStatement.text ≠ number.selection.toStatement.text ∧
        number.selection.toStatement = q.selection.toStatement := by
  have hnames : Projection.everything ∉ peopleSchema.names := by decide
  obtain ⟨-, -, hidle, hsame⟩ := @frames_of_ofRequest peopleSchema {} idleRequest _ hnames rfl
  obtain ⟨-, -, hnumber, -⟩ := @frames_of_ofRequest peopleSchema {} numberRequest _ hnames rfl
  refine ⟨hnames, _, _, rfl, rfl, hidle.2 ⟨rfl, .inr rfl, .inr rfl, rfl, rfl, rfl⟩, ?_,
    (hsame numberRequest _ rfl rfl).1⟩
  exact fun htext => Bool.false_ne_true (hnumber.1 htext).count.symm

end Query

end RecordQuery
