import RecordQuery.Proofs.Scanning

/-!
# The text around a selection

The outer options stand in front of the text of a selection and behind it, and leave the text itself
as it is. A request that is accepted has options in which no placeholder starts.

* `OuterOptions.wrapText_eq` — the options are an opening and a closing text.
* `Query.plain_options` — the projection and the order of an accepted request are plain, if no name
  of the schema holds a colon.
-/

namespace RecordQuery

namespace OuterOptions

/-- What the options write in front of the text of a selection. -/
def opening (options : OuterOptions) : String :=
  if options.isPassthrough then ""
  else if options.count then "SELECT count(*) AS count FROM ("
  else options.narrowing?.elim "" fun projection => "SELECT " ++ projection ++ " FROM ("

/-- What the options write behind the text of a selection. -/
def closing (options : OuterOptions) : String :=
  if options.isPassthrough then ""
  else if options.count then ")"
  else (if options.narrowing?.isSome then ")" else "") ++ options.orderText ++ options.skipText ++
    options.limitText

/-- The options write something in front of the text and something behind it. -/
theorem wrapText_eq (options : OuterOptions) (text : String) :
    options.wrapText text = options.opening ++ text ++ options.closing := by
  unfold wrapText opening closing projectText
  split
  · simp
  · split
    · rfl
    · cases options.narrowing? <;> simp [String.append_assoc]

/-- No digit stands right behind the text of the selection, so the last placeholder in it ends where
it did. -/
theorem halts_closing (options : OuterOptions) : Segment.halts options.closing.toList = true := by
  -- each part that is there starts with a blank
  unfold closing orderText skipText limitText
  split
  · rfl
  · split
    · rfl
    · rw [String.toList_append, String.toList_append, String.toList_append]
      refine Segment.halts_append (Segment.halts_append (Segment.halts_append ?_ ?_) ?_) ?_
      · split <;> rfl
      · split
        · rfl
        · exact Stops.halts (.append (by decide) _)
      · split
        · rfl
        · exact Stops.halts (.append (by decide) _)
      · split
        · rfl
        · exact Stops.halts (.append (by decide) _)

variable {options : OuterOptions}

/-- What stands in front of the text is plain if the projection is. -/
theorem plain_opening (h : ∀ projection ∈ options.projection, Plain projection) :
    Plain options.opening := by
  unfold opening
  split
  · decide
  · split
    · decide
    · cases hnarrowing : options.narrowing? with
      | none =>
        show Plain ""
        decide
      | some projection =>
        have hprojection : options.projection = some projection :=
          (Option.filter_eq_some_iff.1 hnarrowing).1
        exact .append (.append (by decide) (h projection hprojection)) (by decide)

/-- What stands behind the text is plain if the names of the order are. All else there is fixed text
and numbers. -/
theorem plain_closing (h : ∀ name ∈ options.orderBy, Plain name) : Plain options.closing := by
  unfold closing
  split
  · decide
  · split
    · decide
    -- the parenthesis, the order and the numbers, one after the other
    · have horder : Plain options.orderText := by
        unfold orderText
        split
        · decide
        · refine .append (by decide) (.intercalate (by decide) fun s hs => ?_)
          obtain ⟨name, hname, rfl⟩ := List.mem_map.1 hs
          refine .append ((h name hname).append (by decide)) ?_
          cases options.orderByDirection.getD .ascending <;> decide
      have hskip : Plain options.skipText := by
        unfold skipText
        split
        · decide
        · exact .append (by decide) (.number options.skip.toNat)
      have hlimit : Plain options.limitText := by
        unfold limitText
        cases options.limit with
        | none =>
          show Plain ""
          decide
        | some limit => exact .append (by decide) (.number limit.toNat)
      have hparen : Plain (if options.narrowing?.isSome then ")" else "") := by
        split <;> decide
      exact ((hparen.append horder).append hskip).append hlimit

end OuterOptions

-- ---------------------------------------------------------------------------
-- Names that are plain
-- ---------------------------------------------------------------------------

variable {schema : Schema} {limits : Limits}

theorem colon_not_mem_of_isIdentityAttribute {name : String}
    (h : isIdentityAttribute name = true) : ':' ∉ name.toList := by
  rcases isIdentityAttribute_iff.1 h with rfl | rfl <;> decide

/-- A name that a schema without colons knows has no colon. -/
theorem Schema.Knows.withoutColon (hschema : WithoutColon schema.names) {name : String}
    (h : schema.Knows name) : ':' ∉ name.toList := by
  rcases h with h | h
  · exact hschema name h
  · exact colon_not_mem_of_isIdentityAttribute h

namespace PathTree

mutual

/-- The names in a tree of paths. -/
def names : PathTree → List String
  | .node _ children => namesEach children
  termination_by structural tree => tree

/-- The names in the entries of a tree. -/
def namesEach : List (String × PathTree) → List String
  | [] => []
  | (name, tree) :: rest => name :: (names tree ++ namesEach rest)
  termination_by structural entries => entries

end

/-- Changing a child brings in no names but those of the path, whether the child is there already or
is added. -/
theorem mem_namesEach_change {x name : String} {path : List String} {f : PathTree → PathTree}
    (hf : ∀ tree, x ∈ (f tree).names → x ∈ path ∨ x ∈ tree.names)
    {children : List (String × PathTree)} (hx : x ∈ namesEach (change name f children)) :
    x ∈ name :: path ∨ x ∈ namesEach children := by
  induction children with
  | nil =>
    rw [change, namesEach, namesEach, List.append_nil, List.mem_cons] at hx
    rcases hx with rfl | hx
    · exact .inl (List.mem_cons_self ..)
    · rcases hf _ hx with hx | hx
      · exact .inl (List.mem_cons_of_mem _ hx)
      · rw [empty, names, namesEach] at hx
        cases hx
  | cons entry rest ih =>
    obtain ⟨n, tree⟩ := entry
    -- the name is that of the entry, or stands further back
    rw [change] at hx
    split at hx
    · rw [namesEach, List.mem_cons, List.mem_append] at hx
      rw [namesEach, List.mem_cons, List.mem_cons, List.mem_append]
      rcases hx with hx | hx | hx
      · exact .inr (.inl hx)
      · exact (hf tree hx).imp .inr fun h => .inr (.inl h)
      · exact .inr (.inr (.inr hx))
    · rw [namesEach, List.mem_cons, List.mem_append] at hx
      rw [namesEach, List.mem_cons (a := x) (b := n), List.mem_append]
      rcases hx with hx | hx | hx
      · exact .inr (.inl hx)
      · exact .inr (.inr (.inl hx))
      · exact (ih hx).imp_right fun h => .inr (.inr h)

/-- A path brings in no names but its own. -/
theorem mem_names_add {x : String} {path : List String} {tree : PathTree}
    (hx : x ∈ (tree.add path).names) : x ∈ path ∨ x ∈ tree.names := by
  induction path generalizing tree with
  | nil =>
    obtain ⟨wanted, children⟩ := tree
    rw [add, names] at hx
    exact .inr (by rw [names]; exact hx)
  | cons name path ih =>
    obtain ⟨wanted, children⟩ := tree
    rw [add, names] at hx
    rw [names]
    exact mem_namesEach_change (fun tree h => ih h) hx

mutual

/-- What is written of an entry is plain if its names have no colon. -/
theorem plain_renderEntry (name : String) (tree : PathTree) (hname : ':' ∉ name.toList)
    (h : WithoutColon tree.names) : Plain (renderEntry name tree) := by
  obtain ⟨wanted, children⟩ := tree
  rw [names] at h
  have hinner := plain_renderEach children h
  have hgroup : Plain (name ++ ":\x7b" ++ ", ".intercalate (renderEach children) ++ "\x7d") :=
    .append (.append ((Plain.name hname).append (by decide)) (.intercalate (by decide) hinner))
      (by decide)
  rw [renderEntry]
  split
  · exact .name hname
  · split
    · exact .append ((Plain.name hname).append (by decide)) hgroup
    · exact hgroup

/-- What is written of entries is plain if their names have no colon. -/
theorem plain_renderEach (entries : List (String × PathTree)) (h : WithoutColon (namesEach entries)) :
    ∀ s ∈ renderEach entries, Plain s := by
  match entries with
  | [] => simp [renderEach]
  | (name, tree) :: rest =>
    rw [namesEach] at h
    intro s hs
    rw [renderEach, List.mem_cons] at hs
    rcases hs with rfl | hs
    · refine plain_renderEntry name tree (h name (List.mem_cons_self ..)) fun n hn => ?_
      exact h n (List.mem_cons_of_mem _ (List.mem_append_left _ hn))
    · refine plain_renderEach rest (fun n hn => ?_) s hs
      exact h n (List.mem_cons_of_mem _ (List.mem_append_right _ hn))

end

/-- What is written of a tree is plain if its names have no colon. -/
theorem plain_render {tree : PathTree} (h : WithoutColon tree.names) : Plain tree.render := by
  obtain ⟨wanted, children⟩ := tree
  rw [names] at h
  rw [render]
  exact .intercalate (by decide) (plain_renderEach children h)

end PathTree

namespace Projection

/-- The names of an accepted path are known, the last one and those of the links on the way to
it. -/
theorem knows_of_checkPath {text key : String} {model : ClassModel} {path : List String}
    (hmodel : schema.model? key = some model) (h : checkPath schema text model path = .ok ()) :
    ∀ part ∈ path, schema.Knows part := by
  have hproperty : ∀ {key part : String} {model : ClassModel} {def_ : PropertyDef},
      schema.model? key = some model → model.requireProperty part = .ok def_ →
      schema.Knows part := by
    intro key part model def_ hmodel hdef
    exact .inl (Schema.property_mem_names hmodel (orReject_eq_ok.1 hdef))
  -- the check goes to the linked class for the rest, so the class is general in the induction
  fun_induction checkPath schema text model path generalizing key with
  | case1 => simp
  | case2 model last hidentity =>
    intro part hpart
    obtain rfl := List.mem_singleton.1 hpart
    exact .inr hidentity
  | case3 model last =>
    intro part hpart
    obtain rfl := List.mem_singleton.1 hpart
    obtain ⟨def_, hdef, -⟩ := map_eq_ok.1 h
    exact hproperty hmodel hdef
  | case4 => cases h
  | case5 => cases h
  | case6 => cases h
  | case7 model first rest hne def_ hdef linkedClass hlinked linked hrequire ih =>
    intro part hpart
    rcases List.mem_cons.1 hpart with rfl | hpart
    · exact hproperty hmodel hdef
    · exact ih (orReject_eq_ok.1 hrequire) h part hpart

/-- Paths are accepted when each of them is. -/
theorem checkPaths_eq_ok {model : ClassModel} {paths : List String} :
    checkPaths schema model paths = .ok () ↔
      ∀ path ∈ paths, checkPath schema path model (pathOf path) = .ok () := by
  induction paths with
  | nil => simp [checkPaths]
  | cons first rest ih =>
    rw [checkPaths, List.forall_mem_cons]
    cases hfirst : checkPath schema first model (pathOf first) with
    | error e => simp
    | ok _ => simp [ih]

/-- A projection by paths is accepted when there are paths and each is accepted, and is the text of
the tree of these paths. -/
theorem ofPaths_eq_ok {model : ClassModel} {paths : List String} {text : String} :
    ofPaths schema model paths = .ok text ↔
      paths ≠ [] ∧ (∀ path ∈ paths, checkPath schema path model (pathOf path) = .ok ()) ∧
        (treeOf paths).render = text := by
  rw [ofPaths, ← checkPaths_eq_ok]
  split
  · next hempty => simp [List.isEmpty_iff.1 hempty, reject]
  · next hempty =>
    have hne : paths ≠ [] := fun h => hempty (List.isEmpty_iff.2 h)
    rw [map_eq_ok]
    constructor
    · rintro ⟨_, hchecked, htext⟩
      exact ⟨hne, hchecked, htext⟩
    · rintro ⟨-, hchecked, htext⟩
      exact ⟨(), hchecked, htext⟩

/-- A path whose names hold no colon holds none. -/
theorem colon_not_mem_of_pathOf {path : String} (h : WithoutColon (pathOf path)) :
    ':' ∉ path.toList := by
  intro hcolon
  rw [← Text.intercalate_segmentsOf '.' path.toList] at hcolon
  rcases Text.mem_intercalate hcolon with hdot | ⟨part, hpart, hcolon⟩
  · revert hdot
    decide
  · refine h (String.ofList part) (List.mem_map.2 ⟨part, hpart, rfl⟩) ?_
    rwa [String.toList_ofList]

/-- A tree of paths has no names but theirs. -/
theorem mem_names_treeOf {paths : List String} {name : String} (h : name ∈ (treeOf paths).names) :
    ∃ path ∈ paths, name ∈ pathOf path := by
  induction paths using List.reverseRecOn with
  | nil =>
    rw [treeOf, List.foldl_nil, PathTree.empty, PathTree.names, PathTree.namesEach] at h
    cases h
  | append_singleton rest last ih =>
    rw [treeOf, List.foldl_append] at h
    rcases PathTree.mem_names_add h with h | h
    · exact ⟨last, by simp, h⟩
    · obtain ⟨path, hpath, hname⟩ := ih h
      exact ⟨path, List.mem_append_left _ hpath, hname⟩

/-- The projection of the paths of an accepted request is plain, and so are the paths. -/
theorem plain_ofPaths {key : String} {model : ClassModel} {paths : List String} {text : String}
    (hschema : WithoutColon schema.names) (hmodel : schema.model? key = some model)
    (h : ofPaths schema model paths = .ok text) : Plain text ∧ ∀ path ∈ paths, Plain path := by
  obtain ⟨-, hchecked, rfl⟩ := ofPaths_eq_ok.1 h
  have hnames : ∀ path ∈ paths, WithoutColon (pathOf path) := fun path hpath part hpart =>
    (knows_of_checkPath hmodel (hchecked path hpath) part hpart).withoutColon hschema
  constructor
  · apply PathTree.plain_render
    intro name hname
    obtain ⟨path, hpath, hname⟩ := mem_names_treeOf hname
    exact hnames path hpath name hname
  · exact fun path hpath => Plain.name (colon_not_mem_of_pathOf (hnames path hpath))

/-- A plain name has no colon. -/
theorem colon_not_mem_of_isPlainName {name : String} (h : isPlainName name = true) :
    ':' ∉ name.toList := by
  rw [isPlainName] at h
  split at h
  · cases h
  · next first rest hchars =>
    rw [hchars]
    intro hcolon
    rw [Bool.and_eq_true, List.all_eq_true] at h
    have := h.1 ':' hcolon
    revert this
    decide

/-- A projection by names is accepted when there are names and each is plain or an identity
attribute. -/
theorem ofNames_eq_ok {names : List String} {text : String} :
    ofNames names = .ok text ↔ names ≠ [] ∧
      (∀ name ∈ names, isPlainName name = true ∨ isIdentityAttribute name = true) ∧
        ", ".intercalate names = text := by
  rw [ofNames]
  split
  · next hempty => simp [List.isEmpty_iff.1 hempty, reject]
  · next hempty =>
    have hne : names ≠ [] := fun h => hempty (List.isEmpty_iff.2 h)
    have hvalid : invalidName? names = none ↔
        ∀ name ∈ names, isPlainName name = true ∨ isIdentityAttribute name = true := by
      simp only [invalidName?, List.find?_eq_none, Bool.not_eq_true, Bool.not_eq_false',
        Bool.or_eq_true]
    rw [and_iff_right hne, ← hvalid]
    split
    · next hname => simp [hname, reject]
    · next hnone => simp [hnone]

/-- An accepted list of names is plain. -/
theorem plain_ofNames {names : List String} {text : String} (h : ofNames names = .ok text) :
    Plain text ∧ ∀ name ∈ names, Plain name := by
  obtain ⟨-, hvalid, rfl⟩ := ofNames_eq_ok.1 h
  have hnames : ∀ name ∈ names, Plain name := by
    intro name hname
    rcases hvalid name hname with hplain | hidentity
    · exact .name (colon_not_mem_of_isPlainName hplain)
    · exact .name (colon_not_mem_of_isIdentityAttribute hidentity)
  exact ⟨.intercalate (by decide) hnames, hnames⟩

/-- The nested projection of neighbours is plain. -/
theorem plain_nested (withoutHistory : Bool) (depth : Nat) :
    Plain (nested withoutHistory depth) := by
  have hlevel : Plain (level withoutHistory) := by cases withoutHistory <;> decide
  induction depth with
  | zero => exact hlevel
  | succ depth ih => exact .append (.append (hlevel.append (by decide)) ih) (by decide)

end Projection

-- ---------------------------------------------------------------------------
-- Accepted requests
-- ---------------------------------------------------------------------------

namespace Query

/-- A statement is the draft of its selection, spelled from number zero, with the options around it,
and the literals of the draft. -/
theorem toStatement_eq_draft (q : Query) :
    q.toStatement = ⟨q.options.wrapText (q.selection.draft.spell 0),
      (Binder.bindAll {} q.selection.literals).params⟩ := by
  rw [toStatement, OuterOptions.wrap, Selection.toStatement, Selection.render_eq_draft]

/-- Names that are accepted are plain, and so is their projection. -/
theorem plain_project {r : Request} {model : Option ClassModel} {names : List String}
    {target text : String} (hschema : WithoutColon schema.names)
    (hmodel : readTarget schema r.target = .ok (target, model))
    (h : project schema model names = .ok text) : Plain text ∧ ∀ name ∈ names, Plain name := by
  cases model with
  | none => exact Projection.plain_ofNames h
  | some model =>
    obtain ⟨className, -, hfound⟩ := exists_of_readTarget hmodel
    exact Projection.plain_ofPaths hschema hfound h

/-- Nothing in the options of an accepted request starts a placeholder, so wrapping a statement
leaves its placeholders as they are. -/
theorem plain_options {r : Request} {q : Query} (hschema : WithoutColon schema.names)
    (h : ofRequest schema limits r = .ok q) :
    (∀ projection ∈ q.options.projection, Plain projection) ∧
      ∀ name ∈ q.options.orderBy, Plain name := by
  obtain ⟨-, selection, -, target, model, hmodel, horder, projection, hprojection, rfl⟩ :=
    ofRequest_eq_ok.1 h
  -- the projection is checked against the class or by its names, or it is that of neighbours
  constructor
  · rw [projection?] at hprojection
    split at hprojection
    · obtain ⟨text, htext, rfl⟩ := map_eq_ok.1 hprojection
      intro projection hmem
      obtain rfl := Option.some.inj hmem
      exact (plain_project hschema hmodel htext).1
    · obtain rfl := Except.ok.inj hprojection
      intro projection hmem
      dsimp only at hmem
      split at hmem
      · cases hmem
      · obtain rfl := Option.some.inj hmem
        exact Projection.plain_nested _ _
    · obtain rfl := Except.ok.inj hprojection
      intro projection hmem
      cases hmem
  · rw [checkOrder] at horder
    split at horder
    · next hempty =>
      intro name hname
      rw [List.isEmpty_iff.1 hempty] at hname
      cases hname
    · obtain ⟨text, htext, -⟩ := map_eq_ok.1 horder
      exact (plain_project hschema hmodel htext).2

end Query

end RecordQuery
