import RecordQuery.Proofs.PathFields
import RecordQuery.Proofs.Sentences
import RecordQuery.Proofs.Vocabulary

/-!
# Reading projections

`Projection.fields?` reads the text of a projection from left to right. Names and groups stand side
by side with commas between them, and a group is a name, a colon and fields in braces. The reader
knows nothing of trees: it holds the groups that are open and what it has read in each.

A projection that is accepted reads back as the fields of the tree of its paths.

* `Projection.Reads` — a text that is read as fields wherever fields may start.
* `PathTree.reads_render` — the text of a tree is read as its fields.
* `Projection.lists_of_ofPaths` — what the projection of a list of paths lists.
-/

namespace RecordQuery

namespace Projection

-- ---------------------------------------------------------------------------
-- The reader
-- ---------------------------------------------------------------------------

/-- The characters that stand in no name. -/
def marks : List Char := [',', ' ', ':', '\x7b', '\x7d']

/-- What has been read of a projection. -/
structure Reading where
  /-- The groups that are open, innermost first, each with the fields in front of it. -/
  outer : List (String × List Field)
  /-- The fields in the innermost group. -/
  fields : List Field
  /-- The characters of the name being read; nothing right behind a group. -/
  word : Option (List Char)

namespace Reading

/-- Where fields may start, inside open groups and behind other fields. -/
def start (outer : List (String × List Field)) (fields : List Field) : Reading :=
  ⟨outer, fields, some []⟩

/-- The fields in the innermost group, if no name is missing. -/
def finished? (r : Reading) : Option (List Field) :=
  match r.word with
  | none => some r.fields
  | some [] => none
  | some (c :: cs) => some (r.fields ++ [.single (String.ofList (c :: cs))])

/-- Behind a comma. -/
def next? (r : Reading) : Option Reading := r.finished?.map (start r.outer)

/-- Inside the group of the name being read. -/
def opened? (r : Reading) : Option Reading :=
  match r.word with
  | none | some [] => none
  | some (c :: cs) => some (start ((String.ofList (c :: cs), r.fields) :: r.outer) [])

/-- Behind the innermost group. -/
def closed? (r : Reading) : Option Reading :=
  match r.outer with
  | [] => none
  | (name, before) :: outer =>
    r.finished?.map fun fields => ⟨outer, before ++ [.group name fields], none⟩

/-- Behind one more character of a name. -/
def put? (c : Char) (r : Reading) : Option Reading :=
  if c ∈ marks then none else r.word.map fun cs => ⟨r.outer, r.fields, some (cs ++ [c])⟩

/-- Reads the rest of a text. -/
def run : List Char → Reading → Option (List Field)
  | [], r => if r.outer.isEmpty then r.finished? else none
  | ',' :: ' ' :: rest, r => r.next?.bind (run rest)
  | ':' :: '\x7b' :: rest, r => r.opened?.bind (run rest)
  | '\x7d' :: rest, r => r.closed?.bind (run rest)
  | c :: rest, r => (r.put? c).bind (run rest)

/-- A character that is no mark goes on with the name being read. -/
theorem run_char {c : Char} (h : c ∉ marks) (rest : List Char) (r : Reading) :
    run (c :: rest) r = (r.put? c).bind (run rest) := by
  simp only [marks, List.mem_cons, List.not_mem_nil, not_or, or_false] at h
  obtain ⟨hcomma, -, hcolon, -, hclose⟩ := h
  rw [run]
  · exact fun _ heq _ => hcomma heq
  · exact fun _ heq _ => hcolon heq
  · exact hclose

/-- The characters of a name go on with the name being read, all of them. -/
theorem run_word {cs : List Char} (h : ∀ c ∈ cs, c ∉ marks) (rest front : List Char)
    (outer : List (String × List Field)) (fields : List Field) :
    run (cs ++ rest) ⟨outer, fields, some front⟩ =
      run rest ⟨outer, fields, some (front ++ cs)⟩ := by
  induction cs generalizing front with
  | nil => rw [List.nil_append, List.append_nil]
  | cons c cs ih =>
    obtain ⟨hc, hcs⟩ := List.forall_mem_cons.1 h
    rw [List.cons_append, run_char hc, put?, if_neg hc]
    show run (cs ++ rest) ⟨outer, fields, some (front ++ [c])⟩ = _
    rw [ih hcs, List.append_assoc, List.singleton_append]

end Reading

/-- The fields that the text of a projection lists. -/
def fields? (text : String) : Option (List Field) := Reading.run text.toList (.start [] [])

-- ---------------------------------------------------------------------------
-- Texts that are read
-- ---------------------------------------------------------------------------

/-- A text that is read as fields wherever fields may start. -/
def Reads (text : String) (fields : List Field) : Prop :=
  ∀ outer before, ∃ r : Reading, r.outer = outer ∧ r.finished? = some (before ++ fields) ∧
    ∀ rest, Reading.run (text.toList ++ rest) (.start outer before) = Reading.run rest r

/-- A name with a character and without marks. -/
def IsFieldName (name : String) : Prop := name ≠ "" ∧ ∀ c ∈ name.toList, c ∉ marks

namespace Reads

variable {name s t : String} {fields others : List Field}

/-- What is read wherever fields may start is read as a whole text. -/
theorem fields?_eq (h : Reads s fields) : fields? s = some fields := by
  obtain ⟨r, houter, hfinished, hrun⟩ := h [] []
  have hend := hrun []
  rw [List.append_nil] at hend
  rw [fields?, hend, Reading.run, houter, hfinished]
  rfl

/-- Behind a name, what has been read of it is the name. -/
theorem exists_word (h : IsFieldName name) (outer : List (String × List Field))
    (before : List Field) :
    ∃ c cs, String.ofList (c :: cs) = name ∧ ∀ rest,
      Reading.run (name.toList ++ rest) (.start outer before) =
        Reading.run rest ⟨outer, before, some (c :: cs)⟩ := by
  obtain ⟨hne, hmarks⟩ := h
  cases hchars : name.toList with
  | nil => exact absurd (String.toList_eq_nil_iff.1 hchars) hne
  | cons c cs =>
    rw [hchars] at hmarks
    refine ⟨c, cs, ?_, fun rest => Reading.run_word hmarks rest [] outer before⟩
    rw [← hchars, String.ofList_toList]

/-- A name is read as one field. -/
theorem single (h : IsFieldName name) : Reads name [.single name] := by
  intro outer before
  obtain ⟨c, cs, rfl, hrun⟩ := exists_word h outer before
  exact ⟨_, rfl, rfl, hrun⟩

/-- Two texts with a comma between them are read as the fields of one and then the other. -/
theorem join (hs : Reads s fields) (ht : Reads t others) :
    Reads (s ++ ", " ++ t) (fields ++ others) := by
  intro outer before
  obtain ⟨r, houter, hfinished, hrun⟩ := hs outer before
  obtain ⟨r', houter', hfinished', hrun'⟩ := ht outer (before ++ fields)
  refine ⟨r', houter', by rw [hfinished', List.append_assoc], fun rest => ?_⟩
  have hcomma : Reading.run (", ".toList ++ (t.toList ++ rest)) r =
      Reading.run (t.toList ++ rest) (.start outer (before ++ fields)) := by
    show r.next?.bind _ = _
    rw [Reading.next?, hfinished, houter]
    rfl
  rw [String.toList_append, String.toList_append, List.append_assoc, List.append_assoc, hrun,
    hcomma, hrun']

/-- A name with braces behind it is read as a group of what stands in the braces. The fields in
front of it are kept while the group is read. -/
theorem group (h : IsFieldName name) (hs : Reads s fields) :
    Reads (name ++ ":\x7b" ++ s ++ "\x7d") [.group name fields] := by
  intro outer before
  obtain ⟨c, cs, rfl, hword⟩ := exists_word h outer before
  obtain ⟨r, houter, hfinished, hrun⟩ := hs ((String.ofList (c :: cs), before) :: outer) []
  rw [List.nil_append] at hfinished
  refine ⟨⟨outer, before ++ [.group (String.ofList (c :: cs)) fields], none⟩, rfl, rfl,
    fun rest => ?_⟩
  -- the opening brace keeps what was in front of the group, and the closing one puts it back
  have hopen : ∀ rest, Reading.run (":\x7b".toList ++ rest) ⟨outer, before, some (c :: cs)⟩ =
      Reading.run rest (.start ((String.ofList (c :: cs), before) :: outer) []) := fun _ => rfl
  have hclose : Reading.run ("\x7d".toList ++ rest) r =
      Reading.run rest ⟨outer, before ++ [.group (String.ofList (c :: cs)) fields], none⟩ := by
    show r.closed?.bind _ = _
    rw [Reading.closed?, houter]
    dsimp only
    rw [hfinished]
    rfl
  simp only [String.toList_append, List.append_assoc]
  rw [hword, hopen, hrun, hclose]

end Reads

/-- An identifier has a first character and no mark. -/
theorem isFieldName_of_isIdentifier {name : String} (h : IsIdentifier name) : IsFieldName name := by
  obtain ⟨first, rest, hchars, hfirst, hrest⟩ := h
  have hvalid : ∀ c : Char, c.isAlphanum = true ∨ c = '_' → c ∉ marks := by
    intro c hc hmark
    simp only [marks, List.mem_cons, List.not_mem_nil, or_false] at hmark
    rcases hmark with rfl | rfl | rfl | rfl | rfl <;> revert hc <;> decide
  constructor
  · rintro rfl
    cases hchars
  · rw [hchars, List.forall_mem_cons]
    refine ⟨hvalid first ?_, fun c hc => hvalid c (hrest c hc)⟩
    exact hfirst.imp_left fun halpha => by rw [Char.isAlphanum, halpha, Bool.true_or]

/-- Both identity attributes can be read. -/
theorem isFieldName_of_isIdentityAttribute {name : String} (h : isIdentityAttribute name = true) :
    IsFieldName name := by
  have hchecked : name ≠ "" ∧ name.toList.all (fun c => !marks.contains c) = true := by
    rcases isIdentityAttribute_iff.1 h with rfl | rfl <;> decide
  obtain ⟨hne, hall⟩ := hchecked
  refine ⟨hne, fun c hc => ?_⟩
  simpa using List.all_eq_true.1 hall c hc

end Projection

-- ---------------------------------------------------------------------------
-- Trees
-- ---------------------------------------------------------------------------

namespace PathTree

open Projection (Reads IsFieldName)

mutual

/-- What is written of an entry is read as its fields: the name by itself if it is wanted, and a
group if something is wanted below it. -/
theorem reads_renderEntry (name : String) (tree : PathTree) (hname : IsFieldName name)
    (h : ∀ n ∈ tree.names, IsFieldName n) :
    Reads (renderEntry name tree) (entryFields name tree) := by
  match tree with
  | .node wanted [] =>
    rw [renderEntry, entryFields]
    exact .single hname
  | .node wanted (first :: rest) =>
    rw [names] at h
    have hgroup : Reads
        (name ++ ":\x7b" ++ ", ".intercalate (renderEach (first :: rest)) ++ "\x7d")
        [.group name (fieldsEach (first :: rest))] :=
      .group hname (reads_renderEach (first :: rest) (List.cons_ne_nil first rest) h)
    -- a node with children has fields below it, so it is a group and no single name
    have hinner : (fieldsEach (first :: rest)).isEmpty = false := by
      rw [fieldsEach]
      simp [entryFields_ne_nil]
    rw [renderEntry, entryFields, hinner]
    cases wanted with
    | true => exact .join (.single hname) hgroup
    | false => exact hgroup

/-- The text of the entries of a tree is read as their fields. -/
theorem reads_renderEach (entries : List (String × PathTree)) (hne : entries ≠ [])
    (h : ∀ n ∈ namesEach entries, IsFieldName n) :
    Reads (", ".intercalate (renderEach entries)) (fieldsEach entries) := by
  match entries with
  | [] => exact absurd rfl hne
  | (name, tree) :: rest =>
    rw [namesEach] at h
    -- the first entry, and then the others behind a comma if there are any
    have hfirst : Reads (renderEntry name tree) (entryFields name tree) :=
      reads_renderEntry name tree (h name (List.mem_cons_self ..)) fun n hn =>
        h n (List.mem_cons_of_mem _ (List.mem_append_left _ hn))
    cases hrest : rest with
    | nil =>
      rw [renderEach, renderEach, fieldsEach, fieldsEach, String.intercalate_singleton,
        List.append_nil]
      exact hfirst
    | cons second others =>
      have hothers : Reads (", ".intercalate (renderEach rest)) (fieldsEach rest) :=
        reads_renderEach rest (hrest ▸ List.cons_ne_nil second others) fun n hn =>
          h n (List.mem_cons_of_mem _ (List.mem_append_right _ hn))
      have htexts : renderEach rest = renderEntry second.1 second.2 :: renderEach others := by
        rw [hrest]
        rfl
      rw [← hrest, renderEach, fieldsEach, htexts, String.intercalate_cons_cons, ← htexts]
      exact hfirst.join hothers

end

/-- What is written of a tree is read as its fields, if it has any. -/
theorem reads_render {tree : PathTree} (hne : tree.fields ≠ [])
    (h : ∀ n ∈ tree.names, IsFieldName n) :
    Reads tree.render tree.fields := by
  obtain ⟨wanted, entries⟩ := tree
  rw [names] at h
  refine reads_renderEach entries ?_ h
  rintro rfl
  exact hne rfl

example : Projection.fields? "name, friends:\x7bage, friends:\x7bname\x7d, @rid\x7d" =
    some [.single "name",
      .group "friends" [.single "age", .group "friends" [.single "name"], .single "@rid"]] := by
  rfl

end PathTree

-- ---------------------------------------------------------------------------
-- Accepted projections
-- ---------------------------------------------------------------------------

namespace Projection

theorem treeOf_eq_ofParts (paths : List String) :
    treeOf paths = PathTree.ofParts (paths.map pathOf) := by
  rw [treeOf, PathTree.ofParts, List.foldl_map]

/-- The text of the parts of a path. -/
def dotted (parts : List String) : String := ".".intercalate parts

/-- The parts of a path make up the path again. -/
theorem dotted_pathOf (path : String) : dotted (pathOf path) = path := by
  have hparts : (pathOf path).map String.toList = Text.segmentsOf '.' path.toList := by
    rw [pathOf, Text.segments, List.map_map]
    refine (List.map_congr_left fun cs _ => ?_).trans (List.map_id _)
    exact String.toList_ofList
  apply String.toList_injective
  rw [dotted, String.toList_intercalate, hparts]
  exact Text.intercalate_segmentsOf '.' path.toList

variable {schema : Schema}

/-- The names of an accepted list of paths can be read if those of the schema are identifiers. -/
theorem isFieldName_of_mem_names {key : String} {model : ClassModel} {paths : List String}
    (hschema : ∀ name ∈ schema.names, IsIdentifier name) (hmodel : schema.model? key = some model)
    (hchecked : ∀ path ∈ paths, checkPath schema path model (pathOf path) = .ok ()) :
    ∀ name ∈ (treeOf paths).names, IsFieldName name := by
  intro name hname
  obtain ⟨path, hpath, hpart⟩ := mem_names_treeOf hname
  rcases knows_of_checkPath hmodel (hchecked path hpath) name hpart with hknown | hidentity
  · exact isFieldName_of_isIdentifier (hschema name hknown)
  · exact isFieldName_of_isIdentityAttribute hidentity

/-- Fields list paths: each of them once, with one group for every start that one of them goes
beyond, and with the names of every level in the order in which the paths mention them. -/
structure Lists (paths : List String) (fields : List Field) : Prop where
  perm : ((Field.pathsEach fields).map dotted).Perm (distinct paths)
  nodup_groups : (Field.groupsEach fields).Nodup
  /-- Groups open at the starts that a path goes beyond, and nowhere else. -/
  mem_groups : ∀ start, start ∈ Field.groupsEach fields ↔
    start ≠ [] ∧ ∃ path ∈ paths, start <+: pathOf path ∧ start ≠ pathOf path
  /-- A name does not stand in front of one that was mentioned before it. -/
  order : ∀ start, (Field.level start fields).Pairwise fun a b =>
    (mentions start (paths.map pathOf)).idxOf a ≤ (mentions start (paths.map pathOf)).idxOf b

/-- The fields of the tree of any paths list these paths: each path once, a group for each beginning
that goes on, and every level in the order of first mention. -/
theorem lists_fields_treeOf (paths : List String) : Lists paths (treeOf paths).fields := by
  rw [treeOf_eq_ofParts]
  -- a path in full is a list of parts, and a path splits into one part at least
  have hmem : ∀ parts, parts ∈ Field.pathsEach (PathTree.ofParts (paths.map pathOf)).fields ↔
      ∃ path ∈ paths, pathOf path = parts := by
    intro parts
    rw [PathTree.mem_pathsEach, List.mem_map]
    refine and_iff_left_of_imp ?_
    rintro ⟨path, -, rfl⟩
    exact pathOf_ne_nil path
  refine ⟨?_, PathTree.nodup_groupsEach _, fun start => ?_, fun start =>
    PathTree.pairwise_level start _⟩
  · refine (List.perm_ext_iff_of_nodup ?_ (nodup_distinct _)).2 fun path => ?_
    · refine (PathTree.nodup_pathsEach _).map_on fun parts hparts others hothers hsame => ?_
      obtain ⟨path, -, rfl⟩ := (hmem parts).1 hparts
      obtain ⟨other, -, rfl⟩ := (hmem others).1 hothers
      rw [dotted_pathOf, dotted_pathOf] at hsame
      rw [hsame]
    · rw [List.mem_map, mem_distinct]
      constructor
      · rintro ⟨parts, hparts, rfl⟩
        obtain ⟨path, hpath, rfl⟩ := (hmem parts).1 hparts
        rwa [dotted_pathOf]
      · intro hpath
        exact ⟨pathOf path, (hmem _).2 ⟨path, hpath, rfl⟩, dotted_pathOf path⟩
  · rw [PathTree.mem_groupsEach]
    simp only [List.mem_map, exists_exists_and_eq_and]

/-- The projection of a list of paths that is accepted, over a schema whose names are identifiers,
reads back as fields that list these paths. -/
theorem lists_of_ofPaths {key : String} {model : ClassModel} {paths : List String} {text : String}
    (hschema : ∀ name ∈ schema.names, IsIdentifier name) (hmodel : schema.model? key = some model)
    (h : ofPaths schema model paths = .ok text) :
    ∃ fields, fields? text = some fields ∧ Lists paths fields := by
  obtain ⟨hne, hchecked, rfl⟩ := ofPaths_eq_ok.1 h
  have hlists := lists_fields_treeOf paths
  have hfields : (treeOf paths).fields ≠ [] := by
    intro hnil
    have hperm := hlists.perm
    rw [hnil] at hperm
    obtain ⟨path, hpath⟩ := List.exists_mem_of_ne_nil paths hne
    have hlisted := hperm.mem_iff.2 (mem_distinct.2 hpath)
    cases hlisted
  have hreads := PathTree.reads_render hfields (isFieldName_of_mem_names hschema hmodel hchecked)
  exact ⟨_, hreads.fields?_eq, hlists⟩

/-- Friends by themselves, by what they have and by their friends, with a path asked for twice. -/
def friendPaths : List String :=
  ["friends.name", "age", "friends", "friends.friends.nickname", "age", "friends.@rid"]

/-- A name by itself and in a group, a group in a group, and a path that is asked for once more. -/
theorem lists_of_ofPaths_friendPaths :
    (∀ name ∈ peopleSchema.names, IsIdentifier name) ∧
      (treeOf friendPaths).render =
        "friends, friends:\x7bname, friends:\x7bnickname\x7d, @rid\x7d, age" ∧
      ∃ model fields, peopleSchema.model? "Person" = some model ∧
        ofPaths peopleSchema model friendPaths = .ok (treeOf friendPaths).render ∧
        fields? (treeOf friendPaths).render = some fields ∧ Lists friendPaths fields := by
  have hschema : ∀ name ∈ peopleSchema.names, IsIdentifier name := by
    have hplain : ∀ name ∈ peopleSchema.names, isPlainName name = true := by decide
    exact fun name hname => isIdentifier_of_isPlainName (hplain name hname)
  obtain ⟨fields, hfields, hlists⟩ := @lists_of_ofPaths peopleSchema "Person" _ friendPaths _
    hschema rfl rfl
  exact ⟨hschema, by decide +kernel, _, fields, rfl, rfl, hfields, hlists⟩

end Projection

end RecordQuery
