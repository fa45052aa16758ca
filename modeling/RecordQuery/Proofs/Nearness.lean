import RecordQuery.Proofs.Flattening

/-!
# The order in which a class lists its ancestors

A class lists each parent together with the ancestors of that parent before it goes on to the next
parent. So an ancestor of an early parent stands before a later parent, though the parent is nearer.
That is all that can go wrong: if a class and its ancestors list their parents before other classes,
they list all ancestors in the order of their distance.

* `Heritage.foldl_addName_eq` — taking over a list of names.
* `Schema.IsCoherent` — what stands between a class and an ancestor of it in the list of another
  class stands in front of that ancestor in the list of the first, too.
* `Schema.IsWhole.isCoherent_lineage` — lists of ancestors are coherent.
* `Schema.ofDeclarations_nearestFirst_iff` — when ancestors are listed nearest first.
* `Schema.not_nearestFirst_listed` — a class that does not list them so.
-/

namespace RecordQuery

open Relation

-- ---------------------------------------------------------------------------
-- Distances
-- ---------------------------------------------------------------------------

/-- A class is reached from another over so many parents. -/
inductive StepsUp (decls : List ClassDecl) (name : String) : Nat → String → Prop
  | here : StepsUp decls name 0 name
  | up {n : Nat} {a parent : String} (hreached : StepsUp decls name n a)
      (hparent : NamesParent decls a parent) : StepsUp decls name (n + 1) parent

/-- From a class one class is reached over fewer parents than another. -/
def IsNearer (decls : List ClassDecl) (name x y : String) : Prop :=
  ∃ n, StepsUp decls name n x ∧ ∀ m, StepsUp decls name m y → n < m

/-- A name stands in a list before another. -/
def StandsBefore (names : List String) (x y : String) : Prop := [x, y].Sublist names

/-- The ancestors of a class stand in a list in the order of their distance. -/
def NearestFirst (decls : List ClassDecl) (name : String) (names : List String) : Prop :=
  ∀ x y, IsAncestor decls name x → IsAncestor decls name y → IsNearer decls name x y →
    StandsBefore names x y

/-- The parents of a class stand in a list before the other names. -/
def ParentsFirst (decls : List ClassDecl) (name : String) (names : List String) : Prop :=
  ∀ x y, StandsBefore names x y → NamesParent decls name y → NamesParent decls name x

variable {decls : List ClassDecl} {name x y z a : String} {names more : List String} {n : Nat}

instance : Decidable (StandsBefore names x y) := inferInstanceAs (Decidable ([x, y].Sublist names))

/-- Whatever a number of steps leads to is the class or an ancestor. -/
theorem StepsUp.reaches (h : StepsUp decls name n a) : ReflTransGen (NamesParent decls) name a := by
  induction h with
  | here => exact .refl
  | up _ hparent ih => exact ih.tail hparent

/-- Only the class is no step away. -/
theorem stepsUp_zero_iff : StepsUp decls name 0 a ↔ a = name := by
  constructor
  · rintro ⟨⟩
    rfl
  · rintro rfl
    exact .here

/-- The parents are one step away. -/
theorem stepsUp_one_iff : StepsUp decls name 1 a ↔ NamesParent decls name a := by
  constructor
  · intro h
    cases h with
    | up hreached hparent => rwa [stepsUp_zero_iff.1 hreached] at hparent
  · exact fun hparent => .up .here hparent

/-- A parent is nearer than any other ancestor. -/
theorem isNearer_of_namesParent (hx : NamesParent decls name x) (hself : y ≠ name)
    (hy : ¬ NamesParent decls name y) : IsNearer decls name x y := by
  refine ⟨1, stepsUp_one_iff.2 hx, fun m hm => ?_⟩
  have hzero : m ≠ 0 := by
    rintro rfl
    exact hself (stepsUp_zero_iff.1 hm)
  have hone : m ≠ 1 := by
    rintro rfl
    exact hy (stepsUp_one_iff.1 hm)
  omega

-- ---------------------------------------------------------------------------
-- Orders in a list
-- ---------------------------------------------------------------------------

namespace StandsBefore

theorem mem_left (h : StandsBefore names x y) : x ∈ names := h.subset (by simp)

theorem mem_right (h : StandsBefore names x y) : y ∈ names := h.subset (by simp)

/-- In front of a pair that does not start with it, a name can be left out. -/
theorem of_cons (hne : x ≠ z) (h : StandsBefore (z :: names) x y) : StandsBefore names x y := by
  cases h with
  | cons _ h => exact h
  | cons_cons _ _ => exact absurd rfl hne

/-- Nothing stands before the first name, if it stands there alone. -/
theorem not_cons_self (hnot : z ∉ names) : ¬ StandsBefore (z :: names) x z := by
  intro h
  cases h with
  | cons _ h => exact hnot (mem_right h)
  | cons_cons _ h => exact hnot (List.singleton_sublist.1 h)

/-- In a list without repetitions a pair stands in one order only. -/
theorem asymm (hnodup : names.Nodup) (h : StandsBefore names x y) : ¬ StandsBefore names y x := by
  induction names with
  | nil => cases h
  | cons first rest ih =>
    obtain ⟨hfirst, hrest⟩ := List.nodup_cons.1 hnodup
    intro hback
    by_cases hx : x = first
    · subst hx
      exact not_cons_self hfirst hback
    · by_cases hy : y = first
      · subst hy
        exact not_cons_self hfirst h
      · exact ih hrest (h.of_cons hx) (hback.of_cons hy)

/-- Of a pair in a list and one more name of it, this is the first of the pair, or stands behind the
first or in front of both. -/
theorem place (h : StandsBefore names x y) (hz : z ∈ names) :
    z = x ∨ StandsBefore names x z ∨ [z, x, y].Sublist names := by
  obtain ⟨front, back, rfl, hx, hy⟩ := List.cons_sublist_iff.1 h
  obtain ⟨first, second, rfl⟩ := List.append_of_mem hx
  rw [List.append_assoc, List.mem_append, List.cons_append, List.mem_cons] at hz
  -- the new name is in front of the first of the pair, is that first one, or stands behind it
  rcases hz with hz | rfl | hz
  · have hpair : [x, y].Sublist (x :: second ++ back) :=
      (List.Sublist.append (List.singleton_sublist.2 (List.mem_cons_self ..)) hy)
    rw [List.append_assoc]
    exact .inr (.inr ((List.singleton_sublist.2 hz).append hpair))
  · exact .inl rfl
  · have hpair : [x, z].Sublist (x :: (second ++ back)) :=
      (List.singleton_sublist.2 hz).cons_cons x
    refine .inr (.inl (hpair.trans ?_))
    rw [List.append_assoc]
    exact List.sublist_append_right ..

end StandsBefore

/-- To put the parents first it is enough to look at the pairs of listed names. -/
theorem parentsFirst_iff :
    ParentsFirst decls name names ↔ ∀ x ∈ names, ∀ y ∈ names,
      StandsBefore names x y → NamesParent decls name y → NamesParent decls name x :=
  ⟨fun h x _ y _ => h x y, fun h x y hbefore =>
    h x hbefore.mem_left y hbefore.mem_right hbefore⟩

instance : Decidable (ParentsFirst decls name names) := decidable_of_iff' _ parentsFirst_iff

/-- Two names of a list stand in one order or the other. -/
theorem standsBefore_or (hx : x ∈ names) (hy : y ∈ names) (hne : x ≠ y) :
    StandsBefore names x y ∨ StandsBefore names y x := by
  obtain ⟨front, back, rfl⟩ := List.append_of_mem hx
  rcases List.mem_append.1 hy with hy | hy
  · exact .inr ((List.singleton_sublist.2 hy).append
      (List.singleton_sublist.2 (List.mem_cons_self ..)))
  · have hback : y ∈ back := (List.mem_cons.1 hy).resolve_left hne.symm
    exact .inl (((List.singleton_sublist.2 hback).cons_cons x).trans (List.sublist_append_right ..))

-- ---------------------------------------------------------------------------
-- Coherent lists
-- ---------------------------------------------------------------------------

/-- Names are taken over in their order, without those that were there before. The list to take over
is without repetition, so it is looked at as a whole. -/
theorem Heritage.foldl_addName_eq (names : List String) (hmore : more.Nodup) :
    more.foldl addName names = names ++ more.filter (· ∉ names) := by
  induction more generalizing names with
  | nil => simp
  | cons name rest ih =>
    obtain ⟨hname, hrest⟩ := List.nodup_cons.1 hmore
    rw [List.foldl_cons, ih _ hrest, addName]
    split
    -- a name that is there already is kept out of the rest by the filter anyway
    · next hmem => simp [hmem]
    · next hmem =>
      have hsame : rest.filter (· ∉ names ++ [name]) = rest.filter (· ∉ names) := by
        refine List.filter_congr fun a ha => ?_
        have hne : a ≠ name := fun heq => hname (heq ▸ ha)
        simp [hne]
      rw [hsame]
      simp [hmem]

namespace Schema

/-- The ancestors that a class lists. -/
def listed (schema : Schema) (name : String) : List String :=
  (schema.model? name).elim [] (·.inherits)

/-- A class and the ancestors that it lists. -/
def lineage (schema : Schema) (name : String) : List String := name :: schema.listed name

/-- With a name a list holds its ancestors, and what stands between the two is an ancestor of the
first one as well, and listed by it in the same order. -/
structure IsCoherent (schema : Schema) (names : List String) : Prop where
  closed : ∀ z ∈ names, ∀ a ∈ schema.listed z, a ∈ names
  between : ∀ z x y, [z, x, y].Sublist names → y ∈ schema.listed z →
    StandsBefore (schema.listed z) x y

variable {schema : Schema} {decl : ClassDecl}

theorem isCoherent_nil : schema.IsCoherent [] where
  closed := by simp
  between z x y h := by cases h

/-- A class may stand in front of its ancestors. -/
theorem IsCoherent.lineage (h : schema.IsCoherent (schema.listed name)) :
    schema.IsCoherent (schema.lineage name) where
  closed z hz a ha := by
    rcases List.mem_cons.1 hz with rfl | hz
    · exact List.mem_cons_of_mem _ ha
    · exact List.mem_cons_of_mem _ (h.closed z hz a ha)
  between z x y hsub hy := by
    cases hsub with
    | cons _ hsub => exact h.between z x y hsub hy
    | cons_cons _ hsub => exact hsub

/-- A list takes over another. A name and an ancestor of it come from the same of the two, since a
list that holds the first holds the other already. -/
theorem IsCoherent.append_filter (h : schema.IsCoherent names) (hmore : schema.IsCoherent more) :
    schema.IsCoherent (names ++ more.filter (· ∉ names)) where
  closed z hz a ha := by
    rcases List.mem_append.1 hz with hz | hz
    · exact List.mem_append_left _ (h.closed z hz a ha)
    · by_cases hmem : a ∈ names
      · exact List.mem_append_left _ hmem
      · have hadded := hmore.closed z (List.mem_filter.1 hz).1 a ha
        exact List.mem_append_right _ (List.mem_filter.2 ⟨hadded, by simpa using hmem⟩)
  between z x y hsub hy := by
    obtain ⟨front, back, heq, hfront, hback⟩ := List.sublist_append_iff.1 hsub
    cases front with
    | nil =>
      rw [List.nil_append] at heq
      rw [← heq] at hback
      exact hmore.between z x y (hback.trans List.filter_sublist) hy
    | cons first front =>
      obtain rfl : z = first := (List.cons.inj heq).1
      have hmem : y ∈ names := h.closed z (hfront.subset (List.mem_cons_self ..)) y hy
      -- the last of the three is in the first list, so no part of them is in the second
      have hnone : back = [] := by
        rcases List.eq_nil_or_concat back with hnil | ⟨init, last, hlast⟩
        · exact hnil
        · rw [List.concat_eq_append] at hlast
          subst hlast
          have hlast := congrArg List.getLast? heq
          rw [← List.append_assoc, List.getLast?_concat] at hlast
          obtain rfl : y = last := Option.some.inj hlast
          have hnew := hback.subset List.mem_concat_self
          simp [hmem] at hnew
      rw [hnone, List.append_nil] at heq
      rw [← heq] at hfront
      exact h.between z x y hfront hy

/-- What parents hand down one after another. -/
theorem IsCoherent.takeAll {h : Heritage} {parents : List ClassModel}
    (hstart : schema.IsCoherent h.ancestors)
    (hparents : ∀ m ∈ parents, (m.name :: m.inherits).Nodup ∧
      schema.IsCoherent (m.name :: m.inherits)) :
    schema.IsCoherent (h.takeAll parents).ancestors := by
  induction parents generalizing h with
  | nil => exact hstart
  | cons m rest ih =>
    obtain ⟨hnodup, hm⟩ := hparents m (List.mem_cons_self ..)
    refine ih ?_ fun m hm => hparents m (List.mem_cons_of_mem _ hm)
    rw [Heritage.take, Heritage.foldl_addName_eq _ hnodup]
    exact hstart.append_filter hm

-- ---------------------------------------------------------------------------
-- The lists of a schema
-- ---------------------------------------------------------------------------

theorem listed_eq {model : ClassModel} (h : schema.model? name = some model) :
    schema.listed name = model.inherits := by
  rw [listed, h, Option.elim_some]

theorem listed_eq_nil (h : schema.model? name = none) : schema.listed name = [] := by
  rw [listed, h, Option.elim_none]

/-- A declared class lists what its parents hand down. -/
theorem IsWhole.exists_listed_eq (hwhole : IsWhole decls schema) (hmem : decl ∈ decls) :
    ∃ parents, schema.HasModels decl.parents parents ∧
      schema.listed decl.name = (decl.modelFrom parents).inherits := by
  obtain ⟨model, hmodel⟩ := Option.isSome_iff_exists.1 (hwhole.registered decl hmem)
  obtain ⟨parents, hparents, rfl⟩ := hwhole.flattened decl hmem model hmodel
  exact ⟨parents, hparents, listed_eq hmodel⟩

/-- A class is declared, or it lists nothing. -/
theorem IsWhole.resolves_or (hwhole : IsWhole decls schema) (name : String) :
    Resolves decls name ∨ schema.listed name = [] := by
  cases hmodel : schema.model? name with
  | none => exact .inr (listed_eq_nil hmodel)
  | some model => exact .inl (hwhole.resolves name (Option.isSome_of_eq_some hmodel))

/-- No class lists an ancestor twice. -/
theorem IsWhole.nodup_listed (hwhole : IsWhole decls schema) : (schema.listed name).Nodup := by
  rcases hwhole.resolves_or name with hname | hnil
  · obtain ⟨decl, hmem, rfl⟩ := hname.isDeclared
    obtain ⟨parents, -, hlisted⟩ := hwhole.exists_listed_eq hmem
    rw [hlisted]
    exact ClassDecl.nodup_inherits_modelFrom
  · rw [hnil]
    exact List.nodup_nil

/-- A class and what it inherits are its lineage. -/
theorem IsWhole.lineage_eq {model : ClassModel} (hwhole : IsWhole decls schema)
    (h : schema.model? name = some model) :
    model.name :: model.inherits = schema.lineage name := by
  rw [lineage, listed_eq h, hwhole.name_eq h]

section Distinct

variable (hnames : (decls.map (·.name)).Nodup) (hwhole : IsWhole decls schema)
include hnames hwhole

/-- What a class lists are its ancestors by declaration. -/
theorem IsWhole.mem_listed_iff : a ∈ schema.listed name ↔ IsAncestor decls name a := by
  cases hmodel : schema.model? name with
  | some model => rw [listed_eq hmodel, hwhole.mem_inherits_iff hnames hmodel]
  | none =>
    rw [listed_eq_nil hmodel]
    refine ⟨fun h => (List.not_mem_nil h).elim, fun h => ?_⟩
    obtain ⟨parent, ⟨decl, hmem, rfl, -⟩, -⟩ := isAncestor_iff.1 h
    have hregistered := hwhole.registered decl hmem
    simp [hmodel] at hregistered

/-- No class lists itself, as no class is its own ancestor. -/
theorem IsWhole.not_mem_listed_self : name ∉ schema.listed name := by
  rcases hwhole.resolves_or name with hname | hnil
  · rw [hwhole.mem_listed_iff hnames]
    exact hname.not_isAncestor_self hnames
  · simp [hnil]

theorem IsWhole.nodup_lineage : (schema.lineage name).Nodup :=
  List.nodup_cons.2 ⟨hwhole.not_mem_listed_self hnames, hwhole.nodup_listed⟩

/-- Going up from a class, each parent hands down a coherent list. -/
theorem IsWhole.isCoherent_listed (hname : Resolves decls name) :
    schema.IsCoherent (schema.listed name) := by
  induction hname with
  | @intro decl hmem _ ih =>
    obtain ⟨parents, hparents, hlisted⟩ := hwhole.exists_listed_eq hmem
    rw [hlisted]
    refine isCoherent_nil.takeAll fun m hm => ?_
    obtain ⟨parent, hparent, hmodel⟩ := hparents.mem_iff.1 hm
    rw [hwhole.lineage_eq hmodel]
    exact ⟨hwhole.nodup_lineage hnames, (ih parent hparent).lineage⟩

/-- Every lineage is coherent. -/
theorem IsWhole.isCoherent_lineage : schema.IsCoherent (schema.lineage name) := by
  refine IsCoherent.lineage ?_
  rcases hwhole.resolves_or name with hname | hnil
  · exact hwhole.isCoherent_listed hnames hname
  · rw [hnil]
    exact isCoherent_nil

-- ---------------------------------------------------------------------------
-- Nearest first
-- ---------------------------------------------------------------------------

/-- Where parents stand first, what stands in front of a class that is reached over some parents is
reached over no more. -/
theorem IsWhole.exists_stepsUp_le
    (hfirst : ∀ a, ReflTransGen (NamesParent decls) name a → ParentsFirst decls a (schema.listed a))
    (hx : StepsUp decls name n x) (hbefore : StandsBefore (schema.lineage name) y x) :
    ∃ m ≤ n, StepsUp decls name m y := by
  -- induction on the steps to `x`: what stands in front of it is reached by no more of them
  induction hx generalizing y with
  | here =>
    exact absurd hbefore (StandsBefore.not_cons_self (hwhole.not_mem_listed_self hnames))
  | @up n z x hz hparent ih =>
    have hlisted : z ∈ schema.lineage name := by
      rw [lineage, List.mem_cons, hwhole.mem_listed_iff hnames]
      exact reflTransGen_iff_eq_or_transGen.1 hz.reaches
    rcases hbefore.place hlisted with rfl | hyz | hsub
    · exact ⟨n, Nat.le_succ n, hz⟩
    · obtain ⟨m, hm, hy⟩ := ih hyz
      exact ⟨m, Nat.le_succ_of_le hm, hy⟩
    · -- both stand behind a class that has the second as a parent, and so the first as well
      have hlisted : x ∈ schema.listed z := by
        rw [hwhole.mem_listed_iff hnames]
        exact .single hparent
      have hown := (hwhole.isCoherent_lineage hnames).between z y x hsub hlisted
      exact ⟨n + 1, Nat.le_refl _, hz.up (hfirst z hz.reaches y x hown hparent)⟩

/-- With the parents first in every list above a class, that class lists its ancestors nearest
first: of two names in the other order, the first would be no farther than the second. -/
theorem IsWhole.nearestFirst_of_parentsFirst
    (hfirst : ∀ a, ReflTransGen (NamesParent decls) name a →
      ParentsFirst decls a (schema.listed a)) :
    NearestFirst decls name (schema.listed name) := by
  rintro x y hx hy ⟨n, hreached, hfarther⟩
  have hne : x ≠ y := by
    rintro rfl
    exact Nat.lt_irrefl n (hfarther n hreached)
  rw [← hwhole.mem_listed_iff hnames] at hx hy
  refine (standsBefore_or hx hy hne).resolve_right fun hbefore => ?_
  obtain ⟨m, hm, hy⟩ := hwhole.exists_stepsUp_le hnames hfirst hreached (hbefore.cons _)
  exact Nat.not_lt.2 hm (hfarther m hy)

/-- Nearest first puts the parents first, for a parent is nearer than an ancestor that is none. -/
theorem IsWhole.parentsFirst_of_nearestFirst
    (hnearest : NearestFirst decls name (schema.listed name)) :
    ParentsFirst decls name (schema.listed name) := by
  intro x y hbefore hparent
  by_contra hnot
  have hx := (hwhole.mem_listed_iff hnames).1 hbefore.mem_left
  have hy := (hwhole.mem_listed_iff hnames).1 hbefore.mem_right
  have hself : x ≠ name := by
    rintro rfl
    exact hwhole.not_mem_listed_self hnames hbefore.mem_left
  have hnearer := isNearer_of_namesParent hparent hself hnot
  exact hbefore.asymm hwhole.nodup_listed (hnearest y x hy hx hnearer)

/-- A class with one parent lists it in front of what it lists itself. -/
theorem IsWhole.listed_of_parents_eq {parent : String} (hmem : decl ∈ decls)
    (hone : decl.parents = [parent]) : schema.listed decl.name = schema.lineage parent := by
  obtain ⟨parents, hparents, hlisted⟩ := hwhole.exists_listed_eq hmem
  rw [hone, HasModels] at hparents
  obtain ⟨m, rest, hm, hrest, rfl⟩ := List.forall₂_cons_left_iff.1 hparents
  obtain rfl := List.forall₂_nil_left_iff.1 hrest
  rw [hlisted]
  show (m.name :: m.inherits).foldl Heritage.addName [] = _
  rw [hwhole.lineage_eq hm, Heritage.foldl_addName_eq _ (hwhole.nodup_lineage hnames)]
  simp

/-- A class with one parent puts it first. -/
theorem IsWhole.parentsFirst_of_length_le_one
    (hone : ∀ decl ∈ decls, decl.parents.length ≤ 1) :
    ParentsFirst decls name (schema.listed name) := by
  rintro x y hbefore ⟨decl, hmem, rfl, hparent⟩
  obtain ⟨parent, hparents⟩ : ∃ parent, decl.parents = [parent] :=
    List.length_eq_one_iff.1 (Nat.le_antisymm (hone decl hmem) (List.length_pos_of_mem hparent))
  obtain rfl : y = parent := by rwa [hparents, List.mem_singleton] at hparent
  rw [hwhole.listed_of_parents_eq hnames hmem hparents] at hbefore
  exact absurd hbefore (StandsBefore.not_cons_self (hwhole.not_mem_listed_self hnames))

end Distinct

/-- A class and its ancestors list their ancestors nearest first if and only if each of them lists
its parents before other classes. That is so where no class has two parents. -/
theorem ofDeclarations_nearestFirst_iff (hnames : (decls.map (·.name)).Nodup)
    (h : ofDeclarations decls = .ok schema) :
    (∀ name,
      (∀ a, ReflTransGen (NamesParent decls) name a → NearestFirst decls a (schema.listed a)) ↔
        ∀ a, ReflTransGen (NamesParent decls) name a → ParentsFirst decls a (schema.listed a)) ∧
    ((∀ decl ∈ decls, decl.parents.length ≤ 1) →
      ∀ name, NearestFirst decls name (schema.listed name)) := by
  have hwhole := (ofDeclarations_eq_ok hnames).1 h
  refine ⟨fun name => ⟨fun hnearest a ha => ?_, fun hfirst a ha => ?_⟩, fun hone name => ?_⟩
  · exact hwhole.parentsFirst_of_nearestFirst hnames (hnearest a ha)
  · exact hwhole.nearestFirst_of_parentsFirst hnames fun b hb => hfirst b (ha.trans hb)
  · exact hwhole.nearestFirst_of_parentsFirst hnames fun a _ =>
      hwhole.parentsFirst_of_length_le_one hnames hone

-- ---------------------------------------------------------------------------
-- Two parents
-- ---------------------------------------------------------------------------

/-- To put the parents first everywhere it is enough to do so for the classes of the schema. -/
theorem parentsFirst_listed_iff :
    (∀ name, ParentsFirst decls name (schema.listed name)) ↔
      ∀ name ∈ schema.classNames, ParentsFirst decls name (schema.listed name) := by
  refine ⟨fun h name _ => h name, fun h name => ?_⟩
  cases hmodel : schema.model? name with
  | some model => exact h name (Dictionary.find?_isSome_iff.1 (Option.isSome_of_eq_some hmodel))
  | none =>
    rw [listed_eq_nil hmodel]
    exact fun x y hbefore => (List.not_mem_nil hbefore.mem_left).elim

/-- A class below two, of which the second has a parent. -/
theorem ofDeclarations_nearestFirst_target :
    let decls : List ClassDecl := [{ name := "Target", parents := ["Drug", "Gene"] },
      { name := "Gene", parents := ["V"] }, { name := "Drug" }, { name := "V" }]
    (decls.map (·.name)).Nodup ∧ ∃ schema, ofDeclarations decls = .ok schema ∧
      schema.listed "Target" = ["Drug", "Gene", "V"] ∧
      NearestFirst decls "Target" (schema.listed "Target") := by
  intro decls
  have hnames : (decls.map (·.name)).Nodup := by decide
  obtain ⟨schema, hschema, hfirst, htarget⟩ : ∃ schema, ofDeclarations decls = .ok schema ∧
      (∀ name ∈ schema.classNames, ParentsFirst decls name (schema.listed name)) ∧
      schema.listed "Target" = ["Drug", "Gene", "V"] :=
    ⟨_, by cbv, by decide, by decide⟩
  obtain ⟨hiff, -⟩ := ofDeclarations_nearestFirst_iff hnames hschema
  exact ⟨hnames, schema, hschema, htarget,
    (hiff "Target").2 (fun a _ => parentsFirst_listed_iff.2 hfirst a) "Target" .refl⟩

/-- With the two in the other order the parent of the one stands before the other. -/
theorem not_nearestFirst_listed :
    let decls : List ClassDecl := [{ name := "Target", parents := ["Gene", "Drug"] },
      { name := "Gene", parents := ["V"] }, { name := "Drug" }, { name := "V" }]
    (decls.map (·.name)).Nodup ∧ ∃ schema, ofDeclarations decls = .ok schema ∧
      schema.listed "Target" = ["Gene", "V", "Drug"] ∧
      ¬ NearestFirst decls "Target" (schema.listed "Target") := by
  intro decls
  obtain ⟨schema, hschema, htarget⟩ : ∃ schema, ofDeclarations decls = .ok schema ∧
      schema.listed "Target" = ["Gene", "V", "Drug"] := ⟨_, by cbv, by decide⟩
  refine ⟨by decide, schema, hschema, htarget, fun hnearest => ?_⟩
  -- the drug is one step away and stands behind `V`, which is two steps away
  have hdrug : NamesParent decls "Target" "Drug" := by decide
  have hgene : NamesParent decls "Target" "Gene" := by decide
  have hv : NamesParent decls "Gene" "V" := by decide
  have hnearer : IsNearer decls "Target" "Drug" "V" :=
    isNearer_of_namesParent hdrug (by decide) (by decide)
  have hbefore := hnearest "Drug" "V" (.single hdrug) (.tail (.single hgene) hv) hnearer
  rw [htarget] at hbefore
  revert hbefore
  decide

end Schema

end RecordQuery
