import Mathlib.Data.List.Induction
import RecordQuery.Projection

/-!
# What gathering paths makes

A tree of paths grows path by path, and each path changes it in one place per level. What has come
out at the end is read off the list of all paths at once: the entries are the first names of the
paths, in the order of the first mention, and the tree under a name is that of what follows the name
in the paths that start with it.

* `parts_induction` — induction over what follows the first names.
* `PathTree.ofParts_eq` — the tree of a list of paths.
-/

namespace RecordQuery

-- ---------------------------------------------------------------------------
-- Lists of paths
-- ---------------------------------------------------------------------------

/-- The first names of paths. -/
def heads (ps : List (List String)) : List String := ps.filterMap List.head?

/-- What follows a name in a path that starts with it. -/
def restAfter (name : String) : List String → Option (List String)
  | [] => none
  | first :: rest => if first = name then some rest else none

/-- The rests of the paths that start with a name. -/
def below (name : String) (ps : List (List String)) : List (List String) :=
  ps.filterMap (restAfter name)

/-- The names that follow a path in those that go beyond it, in their order. -/
def mentions : List String → List (List String) → List String
  | [], ps => heads ps
  | name :: path, ps => mentions path (below name ps)

/-- A first name is one that some path starts with. -/
theorem mem_heads {name : String} {ps : List (List String)} :
    name ∈ heads ps ↔ ∃ rest, name :: rest ∈ ps := by
  rw [heads, List.mem_filterMap]
  constructor
  · rintro ⟨path, hpath, hhead⟩
    obtain ⟨rest, rfl⟩ := List.head?_eq_some_iff.1 hhead
    exact ⟨rest, hpath⟩
  · rintro ⟨rest, hpath⟩
    exact ⟨name :: rest, hpath, rfl⟩

/-- A rest below a name is what follows it in some path. -/
theorem mem_below {name : String} {rest : List String} {ps : List (List String)} :
    rest ∈ below name ps ↔ name :: rest ∈ ps := by
  rw [below, List.mem_filterMap]
  constructor
  · rintro ⟨path, hpath, hrest⟩
    cases path with
    | nil => cases hrest
    | cons first others =>
      rw [restAfter, Option.ite_none_right_eq_some] at hrest
      obtain ⟨rfl, hrest⟩ := hrest
      obtain rfl := Option.some.inj hrest
      exact hpath
  · intro hpath
    exact ⟨name :: rest, hpath, if_pos rfl⟩

theorem below_eq_nil {name : String} {ps : List (List String)} (h : name ∉ heads ps) :
    below name ps = [] :=
  List.eq_nil_iff_forall_not_mem.2 fun rest hrest => h (mem_heads.2 ⟨rest, mem_below.1 hrest⟩)

theorem heads_eq_nil_iff {ps : List (List String)} : heads ps = [] ↔ ∀ path ∈ ps, path = [] := by
  simp [heads]

/-- Induction over the rests behind the first names: what holds of a list of paths if it holds of
the rests below each of the names with which they start holds of every list. -/
theorem parts_induction {P : List (List String) → Prop}
    (step : ∀ ps, (∀ name ∈ heads ps, P (below name ps)) → P ps) (ps : List (List String)) :
    P ps := by
  -- on the length of the longest path, which going below a name shortens
  have hbounded : ∀ (n : Nat) (ps : List (List String)), (∀ path ∈ ps, path.length ≤ n) → P ps := by
    intro n
    induction n with
    | zero =>
      intro ps hps
      refine step ps fun name hname => ?_
      obtain ⟨rest, hrest⟩ := mem_heads.1 hname
      have := hps _ hrest
      simp at this
    | succ n ih =>
      intro ps hps
      refine step ps fun name _ => ih _ fun rest hrest => ?_
      have := hps _ (mem_below.1 hrest)
      simpa using this
  obtain ⟨n, hn⟩ : ∃ n, ∀ path ∈ ps, path.length ≤ n := by
    clear hbounded
    induction ps with
    | nil => exact ⟨0, by simp⟩
    | cons path rest ih =>
      obtain ⟨n, hn⟩ := ih
      refine ⟨path.length + n, List.forall_mem_cons.2 ⟨by omega, fun other hother => ?_⟩⟩
      have := hn other hother
      omega
  exact hbounded n ps hn

-- ---------------------------------------------------------------------------
-- The tree of a list of paths
-- ---------------------------------------------------------------------------

/-- One more item is kept if it was not met before. -/
theorem distinctFrom_append_singleton {α : Type} [DecidableEq α] (seen as : List α) (a : α) :
    distinctFrom seen (as ++ [a]) =
      distinctFrom seen as ++ if a ∈ seen ∨ a ∈ as then [] else [a] := by
  induction as generalizing seen with
  | nil => by_cases h : a ∈ seen <;> simp [distinctFrom, h]
  | cons b rest ih =>
    -- an item that was met is skipped on both sides, and a new one is met from there on
    rw [List.cons_append, distinctFrom, distinctFrom]
    by_cases hb : b ∈ seen
    · rw [if_pos hb, if_pos hb, ih]
      by_cases ha : a = b
      · subst ha
        simp [hb]
      · simp [ha]
    · rw [if_neg hb, if_neg hb, ih, List.cons_append]
      by_cases ha : a = b
      · subst ha
        simp
      · simp [ha]

/-- One more item is kept if it is not in the list yet. -/
theorem distinct_append_singleton {α : Type} [DecidableEq α] (as : List α) (a : α) :
    distinct (as ++ [a]) = distinct as ++ if a ∈ as then [] else [a] := by
  rw [distinct, distinctFrom_append_singleton]
  simp [distinct]

theorem nodup_distinct {α : Type} [DecidableEq α] (as : List α) : (distinct as).Nodup :=
  nodup_distinctFrom [] as

namespace PathTree

/-- A change reaches the entry of one name, and adds it if there is none. All other entries stay
where they are, and the new one comes last. -/
theorem change_map {name : String} {f : PathTree → PathTree} {g : String → PathTree}
    {names : List String} (h : names.Nodup) :
    change name f (names.map fun n => (n, g n)) =
      (names.map fun n => (n, if n = name then f (g n) else g n)) ++
        if name ∈ names then [] else [(name, f empty)] := by
  induction names with
  | nil => rfl
  | cons n rest ih =>
    obtain ⟨hn, hrest⟩ := List.nodup_cons.1 h
    rw [List.map_cons, change, List.map_cons]
    by_cases hname : n = name
    -- the name is changed where it stands, and it stands there once
    · subst hname
      have hsame : rest.map (fun m => (m, if m = n then f (g m) else g m)) =
          rest.map fun m => (m, g m) := by
        refine List.map_congr_left fun m hm => ?_
        have hne : m ≠ n := fun heq => hn (heq ▸ hm)
        rw [if_neg hne]
      simp [hsame]
    · have hmem : name ∈ n :: rest ↔ name ∈ rest := by simp [Ne.symm hname]
      rw [if_neg hname, if_neg hname, ih hrest, List.cons_append]
      simp only [hmem]

/-- The tree of a list of paths. -/
def ofParts (ps : List (List String)) : PathTree := ps.foldl (fun tree path => tree.add path) empty

/-- Paths are added one after the other. -/
theorem ofParts_append_singleton (ps : List (List String)) (path : List String) :
    ofParts (ps ++ [path]) = (ofParts ps).add path := by
  rw [ofParts, List.foldl_append]
  rfl

/-- The entries of the tree are the first names of the paths, in the order of the first mention, and
the tree under a name is that of the rests behind it. -/
theorem ofParts_eq (ps : List (List String)) :
    ofParts ps = .node (decide ([] ∈ ps))
      ((distinct (heads ps)).map fun name => (name, ofParts (below name ps))) := by
  induction ps using List.reverseRecOn with
  | nil => rfl
  -- the last path changes the entry of its first name, or adds one for it
  | append_singleton ps path ih =>
    rw [ofParts_append_singleton, ih]
    cases path with
    | nil =>
      have hheads : heads (ps ++ [[]]) = heads ps := by simp [heads]
      have hbelow : ∀ name, below name (ps ++ [[]]) = below name ps := by
        intro name
        simp [below, restAfter]
      simp [add, hheads, hbelow]
    | cons name rest =>
      have hheads : heads (ps ++ [name :: rest]) = heads ps ++ [name] := by simp [heads]
      have hbelow : ∀ n, below n (ps ++ [name :: rest]) =
          below n ps ++ if n = name then [rest] else [] := by
        intro n
        by_cases hn : name = n
        · simp [below, restAfter, hn]
        · simp [below, restAfter, hn, Ne.symm hn]
      rw [add, change_map (nodup_distinct _), hheads, distinct_append_singleton, List.map_append]
      have hwanted : ([] ∈ ps ++ [name :: rest]) ↔ [] ∈ ps := by simp
      simp only [hwanted, mem_distinct]
      congr 2
      · refine List.map_congr_left fun n hn => ?_
        rw [hbelow]
        by_cases hname : n = name
        · rw [if_pos hname, if_pos hname, ofParts_append_singleton]
        · rw [if_neg hname, if_neg hname, List.append_nil]
      · by_cases hmem : name ∈ heads ps
        · rw [if_pos hmem, if_pos hmem]
          rfl
        · rw [if_neg hmem, if_neg hmem, List.map_singleton, hbelow, if_pos rfl,
            ofParts_append_singleton, below_eq_nil hmem]
          rfl

end PathTree

end RecordQuery
