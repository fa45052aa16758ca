import Mathlib.Data.List.Nodup
import RecordQuery.Proofs.PathTrees

/-!
# What a tree of paths lists

A projection lists fields: names by themselves, and groups of fields under a name. `PathTree.fields`
are the fields that a tree of paths stands for. Here it is shown what those of the tree of a list of
paths list, by induction over the list of paths.

* `mem_pathsEach`, `nodup_pathsEach` — every path that was gathered, once.
* `mem_groupsEach`, `nodup_groupsEach` — a group for every start that a path goes beyond, once.
* `pairwise_level` — at every level the names in the order of the first mention.
-/

namespace RecordQuery

-- ---------------------------------------------------------------------------
-- Fields
-- ---------------------------------------------------------------------------

/-- What a projection lists. -/
inductive Projection.Field where
  | single (name : String)
  | group (name : String) (fields : List Field)

namespace Projection.Field

/-- The name in front. -/
def label : Field → String
  | .single name => name
  | .group name _ => name

mutual

/-- The paths that a field lists: a name by itself, or those in a group behind its name. -/
def paths : Field → List (List String)
  | .single name => [[name]]
  | .group name fields => (pathsEach fields).map (name :: ·)
  termination_by structural field => field

/-- The paths that fields list. -/
def pathsEach : List Field → List (List String)
  | [] => []
  | field :: rest => paths field ++ pathsEach rest
  termination_by structural fields => fields

end

mutual

/-- The paths at which groups open. -/
def groups : Field → List (List String)
  | .single _ => []
  | .group name fields => [name] :: (groupsEach fields).map (name :: ·)
  termination_by structural field => field

/-- The paths at which the groups of fields open. -/
def groupsEach : List Field → List (List String)
  | [] => []
  | field :: rest => groups field ++ groupsEach rest
  termination_by structural fields => fields

end

/-- The fields in the group of a name. -/
def inside (name : String) : Field → List Field
  | .single _ => []
  | .group other fields => if other = name then fields else []

/-- The names at a level: in front of the fields inside the groups that a path leads through. -/
def level : List String → List Field → List String
  | [], fields => fields.map label
  | name :: path, fields => level path (fields.flatMap (inside name))

/-- The paths that fields list are those of a front and of a back. -/
theorem pathsEach_append (front back : List Field) :
    pathsEach (front ++ back) = pathsEach front ++ pathsEach back := by
  induction front with
  | nil => rfl
  | cons field rest ih => rw [List.cons_append, pathsEach, pathsEach, ih, List.append_assoc]

/-- The groups of fields are those of a front and of a back. -/
theorem groupsEach_append (front back : List Field) :
    groupsEach (front ++ back) = groupsEach front ++ groupsEach back := by
  induction front with
  | nil => rfl
  | cons field rest ih => rw [List.cons_append, groupsEach, groupsEach, ih, List.append_assoc]

/-- The paths of fields that are made item by item are listed item by item. -/
theorem pathsEach_flatMap {α : Type} (f : α → List Field) (as : List α) :
    pathsEach (as.flatMap f) = as.flatMap fun a => pathsEach (f a) := by
  induction as with
  | nil => rfl
  | cons a rest ih => rw [List.flatMap_cons, List.flatMap_cons, pathsEach_append, ih]

/-- The groups of fields that are made item by item open item by item. -/
theorem groupsEach_flatMap {α : Type} (f : α → List Field) (as : List α) :
    groupsEach (as.flatMap f) = as.flatMap fun a => groupsEach (f a) := by
  induction as with
  | nil => rfl
  | cons a rest ih => rw [List.flatMap_cons, List.flatMap_cons, groupsEach_append, ih]

end Projection.Field

open Projection (Field)

namespace PathTree

mutual

/-- The fields of a name and the paths below it. -/
def entryFields (name : String) : PathTree → List Field
  | .node wanted children =>
    let inner := fieldsEach children
    if inner.isEmpty then [.single name]
    else if wanted then [.single name, .group name inner]
    else [.group name inner]
  termination_by structural tree => tree

/-- The fields of the entries of a tree. -/
def fieldsEach : List (String × PathTree) → List Field
  | [] => []
  | (name, tree) :: rest => entryFields name tree ++ fieldsEach rest
  termination_by structural entries => entries

end

/-- The fields of a tree. -/
def fields : PathTree → List Field
  | .node _ children => fieldsEach children

/-- The fields of several entries are those of one after the other. -/
theorem fieldsEach_eq_flatMap (entries : List (String × PathTree)) :
    fieldsEach entries = entries.flatMap fun (name, tree) => entryFields name tree := by
  induction entries with
  | nil => rfl
  | cons entry rest ih => rw [fieldsEach, ih, List.flatMap_cons]

/-- An entry makes one field at least. -/
theorem entryFields_ne_nil (name : String) (tree : PathTree) : entryFields name tree ≠ [] := by
  obtain ⟨wanted, children⟩ := tree
  rw [entryFields]
  split
  · simp
  · split <;> simp

-- ---------------------------------------------------------------------------
-- What its fields list
-- ---------------------------------------------------------------------------

/-- The fields under a name: the name if it is a path by itself, and a group of what the other paths
go on with. -/
def fieldsAt (name : String) (ps : List (List String)) : List Field :=
  (if [name] ∈ ps then [.single name] else []) ++
    if heads (below name ps) = [] then [] else [.group name (ofParts (below name ps)).fields]

theorem fields_eq_nil {ps : List (List String)} (h : heads ps = []) : (ofParts ps).fields = [] := by
  rw [ofParts_eq, h]
  rfl

/-- What the tree lists under a name is read off the paths: the name if it is one of them, and a
group if others go beyond it. -/
theorem entryFields_ofParts {name : String} {ps : List (List String)} (h : name ∈ heads ps) :
    entryFields name (ofParts (below name ps)) = fieldsAt name ps := by
  have hwanted : [] ∈ below name ps ↔ [name] ∈ ps := mem_below
  obtain ⟨rest, hrest⟩ := mem_heads.1 h
  cases hheads : heads (below name ps) with
  | nil =>
    -- every path under the name ends with it, and there is one
    obtain rfl : rest = [] := heads_eq_nil_iff.1 hheads rest (mem_below.2 hrest)
    rw [fieldsAt, if_pos hrest, if_pos hheads, ofParts_eq, hheads]
    rfl
  | cons first others =>
    have hfields : (ofParts (below name ps)).fields ≠ [] := by
      rw [ofParts_eq, fields, fieldsEach_eq_flatMap, hheads]
      simp [distinct, distinctFrom, entryFields_ne_nil]
    have hne : heads (below name ps) ≠ [] := by simp [hheads]
    rw [fieldsAt, if_neg hne]
    generalize below name ps = qs at hfields hwanted
    rw [ofParts_eq, fields] at hfields ⊢
    rw [entryFields]
    by_cases hself : [name] ∈ ps <;> simp [hfields, hwanted, hself]

/-- The fields of the tree, name by name. -/
theorem fields_ofParts (ps : List (List String)) :
    (ofParts ps).fields = (distinct (heads ps)).flatMap fun name => fieldsAt name ps := by
  rw [ofParts_eq, fields, fieldsEach_eq_flatMap, List.flatMap_map]
  refine List.flatMap_congr fun name hname => ?_
  exact entryFields_ofParts (mem_distinct.1 hname)

/-- The paths that the tree of a list of paths lists, name by name and in the order of the first
mention. -/
theorem pathsEach_fields (ps : List (List String)) :
    Field.pathsEach (ofParts ps).fields = (distinct (heads ps)).flatMap fun name =>
      ((if [name] ∈ ps then [[]] else []) ++
        Field.pathsEach (ofParts (below name ps)).fields).map (name :: ·) := by
  rw [fields_ofParts, Field.pathsEach_flatMap]
  congr 1
  funext name
  rw [fieldsAt, Field.pathsEach_append, List.map_append]
  congr 1
  · split <;> rfl
  · split
    · next hheads =>
      rw [fields_eq_nil hheads]
      rfl
    · rw [Field.pathsEach, Field.pathsEach, Field.paths, List.append_nil]

/-- The groups of the tree of a list of paths, name by name. -/
theorem groupsEach_fields (ps : List (List String)) :
    Field.groupsEach (ofParts ps).fields = (distinct (heads ps)).flatMap fun name =>
      (if heads (below name ps) = [] then []
        else [] :: Field.groupsEach (ofParts (below name ps)).fields).map (name :: ·) := by
  rw [fields_ofParts, Field.groupsEach_flatMap]
  congr 1
  funext name
  have hself : Field.groupsEach (if [name] ∈ ps then [.single name] else []) = [] := by
    split <;> rfl
  rw [fieldsAt, Field.groupsEach_append, hself, List.nil_append]
  split
  · rfl
  · rw [Field.groupsEach, Field.groupsEach, Field.groups, List.append_nil, List.map_cons]

section Names

variable {names : List String} {rests : String → List (List String)}

/-- A path starts with one of the names and goes on with one of the rests for it. -/
theorem mem_flatMap_map_cons {path : List String} :
    path ∈ names.flatMap (fun name => (rests name).map (name :: ·)) ↔
      ∃ name rest, name :: rest = path ∧ name ∈ names ∧ rest ∈ rests name := by
  simp only [List.mem_flatMap, List.mem_map]
  constructor
  · rintro ⟨name, hname, rest, hrest, rfl⟩
    exact ⟨name, rest, rfl, hname, hrest⟩
  · rintro ⟨name, rest, rfl, hname, hrest⟩
    exact ⟨name, hname, rest, hrest, rfl⟩

/-- Paths behind different names differ. -/
theorem nodup_flatMap_map_cons (hnames : names.Nodup) (h : ∀ name ∈ names, (rests name).Nodup) :
    (names.flatMap fun name => (rests name).map (name :: ·)).Nodup := by
  refine List.nodup_flatMap.2 ⟨fun name hname => ?_, hnames.imp fun hne => ?_⟩
  · exact (h name hname).map fun _ _ hrests => (List.cons.inj hrests).2
  · intro path hfirst hsecond
    obtain ⟨rest, -, rfl⟩ := List.mem_map.1 hfirst
    obtain ⟨other, -, hsame⟩ := List.mem_map.1 hsecond
    exact hne (List.cons.inj hsame).1.symm

end Names

/-- The fields list the paths that were gathered. The empty path is no field: it stands for the
place where the fields are listed. -/
theorem mem_pathsEach {ps : List (List String)} {path : List String} :
    path ∈ Field.pathsEach (ofParts ps).fields ↔ path ∈ ps ∧ path ≠ [] := by
  induction ps using parts_induction generalizing path with
  | step ps ih =>
    rw [pathsEach_fields, mem_flatMap_map_cons]
    constructor
    · rintro ⟨name, rest, rfl, hname, hrest⟩
      refine ⟨?_, List.cons_ne_nil name rest⟩
      -- the name is listed by itself when it is a path, and every other path stands in its group
      rcases List.mem_append.1 hrest with hrest | hrest
      · split at hrest
        · next hself =>
          obtain rfl := List.mem_singleton.1 hrest
          exact hself
        · cases hrest
      · exact mem_below.1 ((ih name (mem_distinct.1 hname)).1 hrest).1
    -- every path is reached through its first name, by induction on the rest
    · rintro ⟨hpath, hne⟩
      obtain ⟨name, rest, rfl⟩ := List.exists_cons_of_ne_nil hne
      have hname : name ∈ heads ps := mem_heads.2 ⟨rest, hpath⟩
      refine ⟨name, rest, rfl, mem_distinct.2 hname, List.mem_append.2 ?_⟩
      by_cases hrest : rest = []
      · subst hrest
        exact .inl (by simp [hpath])
      · exact .inr ((ih name hname).2 ⟨mem_below.2 hpath, hrest⟩)

/-- No path is listed twice: paths under different names differ, and under one name they differ
below. -/
theorem nodup_pathsEach (ps : List (List String)) :
    (Field.pathsEach (ofParts ps).fields).Nodup := by
  induction ps using parts_induction with
  | step ps ih =>
    rw [pathsEach_fields]
    refine nodup_flatMap_map_cons (nodup_distinct _) fun name hname => ?_
    have hinner := ih name (mem_distinct.1 hname)
    split
    · have hnil : [] ∉ Field.pathsEach (ofParts (below name ps)).fields := fun hmem =>
        (mem_pathsEach.1 hmem).2 rfl
      exact List.nodup_cons.2 ⟨hnil, hinner⟩
    · exact hinner

/-- A group opens wherever a path goes on: a start is one if it is not empty and some path goes on
behind it. -/
theorem mem_groupsEach {ps : List (List String)} {start : List String} :
    start ∈ Field.groupsEach (ofParts ps).fields ↔
      start ≠ [] ∧ ∃ path ∈ ps, start <+: path ∧ start ≠ path := by
  induction ps using parts_induction generalizing start with
  | step ps ih =>
    rw [groupsEach_fields, mem_flatMap_map_cons]
    constructor
    · rintro ⟨name, rest, rfl, hname, hrest⟩
      refine ⟨List.cons_ne_nil name rest, ?_⟩
      split at hrest
      · cases hrest
      · next hheads =>
        -- the group of the name itself, or one inside it
        rcases List.mem_cons.1 hrest with rfl | hrest
        · obtain ⟨second, others, hheads⟩ := List.exists_cons_of_ne_nil hheads
          have hsecond : second ∈ heads (below name ps) := by simp [hheads]
          obtain ⟨last, hlast⟩ := mem_heads.1 hsecond
          exact ⟨name :: second :: last, mem_below.1 hlast, by simp, by simp⟩
        · obtain ⟨-, path, hpath, hstart, hne⟩ := (ih name (mem_distinct.1 hname)).1 hrest
          refine ⟨name :: path, mem_below.1 hpath, ?_, by simpa using hne⟩
          exact List.cons_prefix_cons.2 ⟨rfl, hstart⟩
    · rintro ⟨hne, path, hpath, hstart, hbeyond⟩
      obtain ⟨name, rest, rfl⟩ := List.exists_cons_of_ne_nil hne
      obtain ⟨last, rfl⟩ := hstart
      have hname : name ∈ heads ps := mem_heads.2 ⟨rest ++ last, hpath⟩
      have hbelow : rest ++ last ∈ below name ps := mem_below.2 hpath
      have hlast : last ≠ [] := by
        rintro rfl
        simp at hbeyond
      -- a path goes beyond the start, so the group of its first name opens
      have hheads : heads (below name ps) ≠ [] := by
        intro hnil
        have := heads_eq_nil_iff.1 hnil _ hbelow
        simp [hlast] at this
      refine ⟨name, rest, rfl, mem_distinct.2 hname, ?_⟩
      rw [if_neg hheads, List.mem_cons]
      by_cases hrest : rest = []
      · exact .inl hrest
      · refine .inr ((ih name hname).2 ⟨hrest, rest ++ last, hbelow, List.prefix_append .., ?_⟩)
        simpa using hlast

/-- No group opens twice. -/
theorem nodup_groupsEach (ps : List (List String)) :
    (Field.groupsEach (ofParts ps).fields).Nodup := by
  induction ps using parts_induction with
  | step ps ih =>
    rw [groupsEach_fields]
    refine nodup_flatMap_map_cons (nodup_distinct _) fun name hname => ?_
    split
    · exact List.nodup_nil
    · have hnil : [] ∉ Field.groupsEach (ofParts (below name ps)).fields := fun hmem =>
        (mem_groupsEach.1 hmem).1 rfl
      exact List.nodup_cons.2 ⟨hnil, ih name (mem_distinct.1 hname)⟩

-- ---------------------------------------------------------------------------
-- The order of its names
-- ---------------------------------------------------------------------------

/-- Looking inside a name finds the group of that name and no other. -/
theorem flatMap_inside_fieldsAt (name other : String) (ps : List (List String)) :
    (fieldsAt other ps).flatMap (Field.inside name) =
      if other = name then (ofParts (below other ps)).fields else [] := by
  have hself : (if [other] ∈ ps then [Field.single other] else []).flatMap (Field.inside name) =
      [] := by
    split <;> rfl
  rw [fieldsAt, List.flatMap_append, hself, List.nil_append]
  split
  · next hheads =>
    rw [fields_eq_nil hheads]
    split <;> rfl
  · rw [List.flatMap_singleton, Field.inside]

/-- What stands in the group of a name is what goes on behind it, so a level of the fields is the
first level of the paths below it. -/
theorem flatMap_inside_fields (name : String) (ps : List (List String)) :
    (ofParts ps).fields.flatMap (Field.inside name) = (ofParts (below name ps)).fields := by
  -- names are distinct, so at most one of the groups is the one asked for
  have honce : ∀ names : List String, names.Nodup →
      (names.flatMap fun other =>
        if other = name then (ofParts (below other ps)).fields else []) =
        if name ∈ names then (ofParts (below name ps)).fields else [] := by
    intro names hnames
    induction names with
    | nil => rfl
    | cons other rest ih =>
      obtain ⟨hother, hrest⟩ := List.nodup_cons.1 hnames
      rw [List.flatMap_cons, ih hrest]
      by_cases hname : other = name
      · subst hname
        simp [hother]
      · simp [hname, Ne.symm hname]
  rw [fields_ofParts, List.flatMap_assoc]
  simp only [flatMap_inside_fieldsAt]
  rw [honce _ (nodup_distinct _)]
  split
  · rfl
  · next hname =>
    rw [mem_distinct] at hname
    rw [below_eq_nil hname]
    rfl

/-- The fields under a name have it in front. -/
theorem label_of_mem_fieldsAt {name : String} {ps : List (List String)} {field : Field}
    (h : field ∈ fieldsAt name ps) : field.label = name := by
  rcases List.mem_append.1 h with h | h
  · split at h
    · obtain rfl := List.mem_singleton.1 h
      rfl
    · cases h
  · split at h
    · cases h
    · obtain rfl := List.mem_singleton.1 h
      rfl

/-- Each entry of a list without repetition stands in the order of the first places, for a later
copy is dropped and the first one stays. -/
theorem pairwise_distinct {α : Type} [DecidableEq α] (as : List α) :
    (distinct as).Pairwise fun a b => as.idxOf a < as.idxOf b := by
  induction as using List.reverseRecOn with
  | nil => exact .nil
  -- the last item is new or has its place already
  | append_singleton as a ih =>
    have hkeep : ∀ b ∈ distinct as, (as ++ [a]).idxOf b = as.idxOf b := fun b hb =>
      List.idxOf_append_of_mem (mem_distinct.1 hb)
    have hfront : (distinct as).Pairwise fun b c => (as ++ [a]).idxOf b < (as ++ [a]).idxOf c := by
      refine ih.imp_of_mem fun {b c} hb hc hlt => ?_
      rw [hkeep b hb, hkeep c hc]
      exact hlt
    rw [distinct_append_singleton]
    by_cases ha : a ∈ as
    · rwa [if_pos ha, List.append_nil]
    · rw [if_neg ha, List.pairwise_append]
      refine ⟨hfront, List.pairwise_singleton _ _, fun b hb c hc => ?_⟩
      obtain rfl := List.mem_singleton.1 hc
      have hlast : (as ++ [c]).idxOf c = as.length := by
        rw [List.idxOf_append_of_notMem ha]
        simp
      rw [hkeep b hb, hlast]
      exact List.idxOf_lt_length_of_mem (mem_distinct.1 hb)

/-- The names at a level stand in the order of their first mention, whichever paths mention them and
whatever stands below. -/
theorem pairwise_level (path : List String) (ps : List (List String)) :
    (Field.level path (ofParts ps).fields).Pairwise fun a b =>
      (mentions path ps).idxOf a ≤ (mentions path ps).idxOf b := by
  induction path generalizing ps with
  | nil =>
    rw [Field.level, mentions, fields_ofParts, List.map_flatMap, List.pairwise_flatMap]
    -- a name may stand there twice, once by itself and once for its group
    have hlabels : ∀ name, ∀ label ∈ (fieldsAt name ps).map Field.label, label = name := by
      intro name label hlabel
      obtain ⟨field, hfield, rfl⟩ := List.mem_map.1 hlabel
      exact label_of_mem_fieldsAt hfield
    constructor
    · intro name _
      refine List.pairwise_of_forall_mem_list fun a ha b hb => ?_
      have hsame : a = b := (hlabels name a ha).trans (hlabels name b hb).symm
      exact Nat.le_of_eq (by rw [hsame])
    · refine (pairwise_distinct _).imp fun {name other} hlt a ha b hb => ?_
      rw [hlabels name a ha, hlabels other b hb]
      exact Nat.le_of_lt hlt
  | cons name path ih =>
    rw [Field.level, mentions, flatMap_inside_fields]
    exact ih (below name ps)

end PathTree

end RecordQuery
