import Mathlib.Data.Set.Finite.List
import Mathlib.Logic.Relation
import Mathlib.Order.WellFounded
import RecordQuery.Schema.Basic

/-!
# The parents that declarations name

Declarations name parents, and so each of them has ancestors before any class is registered. This
module is about that relation alone. A class that leads to an undeclared parent or into a cycle is
*unresolved*, and one that can be built up from its parents *resolves*. Where no two declarations
share a name, a declared class is one or the other:

* `Resolves.not_unresolved`, `resolves_of_not_unresolved` — exactly one of the two holds.
* `resolvable_iff` — all classes resolve if every parent is declared and there is no cycle.
-/

namespace RecordQuery

open Relation

variable (decls : List ClassDecl)

/-- A class is declared. -/
def IsDeclared (name : String) : Prop := ∃ decl ∈ decls, decl.name = name

/-- A class is declared with this parent. -/
def NamesParent (child parent : String) : Prop :=
  ∃ decl ∈ decls, decl.name = child ∧ parent ∈ decl.parents

instance (child parent : String) : Decidable (NamesParent decls child parent) :=
  inferInstanceAs (Decidable (∃ decl ∈ decls, decl.name = child ∧ parent ∈ decl.parents))

/-- A class is reached from another over one or more parents. -/
def IsAncestor (name ancestor : String) : Prop := TransGen (NamesParent decls) name ancestor

/-- A class is not declared or is its own ancestor, or some ancestor of it is so. -/
def Unresolved (name : String) : Prop :=
  ∃ reached, ReflTransGen (NamesParent decls) name reached ∧
    (¬ IsDeclared decls reached ∨ IsAncestor decls reached reached)

/-- A class is declared and its parents resolve. -/
inductive Resolves : String → Prop
  | intro {decl : ClassDecl} (hmem : decl ∈ decls)
      (hparents : ∀ parent ∈ decl.parents, Resolves parent) : Resolves decl.name

/-- The parents are declared and no class is its own ancestor. -/
structure Resolvable : Prop where
  declared : ∀ child parent, NamesParent decls child parent → IsDeclared decls parent
  acyclic : ∀ name, ¬ IsAncestor decls name name

variable {decls} {name parent a : String}

-- ---------------------------------------------------------------------------
-- What resolves
-- ---------------------------------------------------------------------------

theorem Resolves.isDeclared (h : Resolves decls name) : IsDeclared decls name := by
  cases h with
  | intro hmem _ => exact ⟨_, hmem, rfl⟩

/-- Which classes resolve depends on what is declared, not on the order. -/
theorem Resolves.of_subset {others : List ClassDecl} (hsubset : decls ⊆ others)
    (h : Resolves decls name) : Resolves others name := by
  induction h with
  | intro hmem _ ih => exact .intro (hsubset hmem) ih

/-- The ancestors of a class are its parents and theirs. -/
theorem isAncestor_iff :
    IsAncestor decls name a ↔
      ∃ parent, NamesParent decls name parent ∧ (parent = a ∨ IsAncestor decls parent a) := by
  rw [IsAncestor, TransGen.head'_iff]
  simp only [reflTransGen_iff_eq_or_transGen, IsAncestor, eq_comm]

section Distinct

variable (hnames : (decls.map (·.name)).Nodup)
include hnames

/-- The parents of a class are those that its one declaration names. -/
theorem namesParent_iff {decl : ClassDecl} (hmem : decl ∈ decls) :
    NamesParent decls decl.name parent ↔ parent ∈ decl.parents := by
  constructor
  · rintro ⟨other, hother, heq, hparent⟩
    rwa [List.inj_on_of_nodup_map hnames hother hmem heq] at hparent
  · exact fun hparent => ⟨decl, hmem, rfl, hparent⟩

/-- The parents of a class that resolves do too. -/
theorem Resolves.of_namesParent (h : Resolves decls name)
    (hparent : NamesParent decls name parent) : Resolves decls parent := by
  cases h with
  | intro hmem hparents => exact hparents _ ((namesParent_iff hnames hmem).1 hparent)

/-- And so does everything that is reached by going up. -/
theorem Resolves.of_reaches (h : Resolves decls name)
    (hreached : ReflTransGen (NamesParent decls) name a) : Resolves decls a := by
  induction hreached with
  | refl => exact h
  | tail _ hstep ih => exact ih.of_namesParent hnames hstep

/-- A cycle through a class is one through a parent of it. -/
theorem Resolves.not_isAncestor_self (h : Resolves decls name) :
    ¬ IsAncestor decls name name := by
  induction h with
  | @intro decl hmem _ ih =>
    intro hcycle
    obtain ⟨parent, hparent, hback⟩ := TransGen.head'_iff.1 hcycle
    exact ih parent ((namesParent_iff hnames hmem).1 hparent) (.tail' hback hparent)

/-- Going up from a class that resolves, no missing class and no cycle is met. -/
theorem Resolves.not_unresolved (h : Resolves decls name) : ¬ Unresolved decls name := by
  rintro ⟨reached, hreached, hbad⟩
  have hresolves := h.of_reaches hnames hreached
  rcases hbad with hmissing | hcycle
  · exact hmissing hresolves.isDeclared
  · exact hresolves.not_isAncestor_self hnames hcycle

end Distinct

-- ---------------------------------------------------------------------------
-- What does not lead astray resolves
-- ---------------------------------------------------------------------------

/-- A child of a class that leads to a missing class or a cycle leads there too. -/
theorem Unresolved.of_namesParent (hparent : NamesParent decls name parent)
    (h : Unresolved decls parent) : Unresolved decls name := by
  obtain ⟨reached, hreached, hbad⟩ := h
  exact ⟨reached, hreached.head hparent, hbad⟩

theorem not_isAncestor_self_of_not_unresolved (h : ¬ Unresolved decls name) :
    ¬ IsAncestor decls name name :=
  fun hcycle => h ⟨name, .refl, .inr hcycle⟩

theorem isDeclared_of_not_unresolved (h : ¬ Unresolved decls name) : IsDeclared decls name := by
  by_contra hmissing
  exact h ⟨name, .refl, .inl hmissing⟩

/-- There are finitely many classes, so their ancestors come to an end unless there is a cycle. -/
theorem wellFounded_isAncestor :
    WellFounded fun a b : {name // ¬ Unresolved decls name} => IsAncestor decls b.1 a.1 := by
  have hfinite : {name | ¬ Unresolved decls name}.Finite := by
    refine (decls.map (·.name)).finite_toSet.subset fun name hname => ?_
    obtain ⟨decl, hmem, heq⟩ := isDeclared_of_not_unresolved hname
    exact List.mem_map.2 ⟨decl, hmem, heq⟩
  have : Finite {name // ¬ Unresolved decls name} := hfinite.to_subtype
  have : IsTrans {name // ¬ Unresolved decls name} fun a b => IsAncestor decls b.1 a.1 :=
    ⟨fun _ _ _ hab hbc => TransGen.trans hbc hab⟩
  have : Std.Irrefl fun a b : {name // ¬ Unresolved decls name} => IsAncestor decls b.1 a.1 :=
    ⟨fun a => not_isAncestor_self_of_not_unresolved a.2⟩
  exact Finite.wellFounded_of_trans_of_irrefl _

/-- A class that leads nowhere bad resolves. The proof goes up by well-founded induction on the
classes that it reaches, which are finitely many and have no cycle. -/
theorem resolves_of_not_unresolved (h : ¬ Unresolved decls name) : Resolves decls name := by
  suffices hall : ∀ n : {name // ¬ Unresolved decls name}, Resolves decls n.1 from hall ⟨name, h⟩
  intro n
  induction n using wellFounded_isAncestor.induction with
  | _ n ih =>
    obtain ⟨name, hname⟩ := n
    obtain ⟨decl, hmem, rfl⟩ := isDeclared_of_not_unresolved hname
    refine .intro hmem fun parent hparent => ?_
    have hstep : NamesParent decls decl.name parent := ⟨decl, hmem, rfl, hparent⟩
    have hsound : ¬ Unresolved decls parent := fun hbad => hname (hbad.of_namesParent hstep)
    exact ih ⟨parent, hsound⟩ (.single hstep)

/-- With distinct names, resolving is the opposite of leading to a missing class or a cycle. -/
theorem resolves_iff (hnames : (decls.map (·.name)).Nodup) :
    Resolves decls name ↔ ¬ Unresolved decls name :=
  ⟨fun h => h.not_unresolved hnames, resolves_of_not_unresolved⟩

/-- All classes resolve if and only if every parent is declared and there is no cycle. What is wrong
anywhere above a class is reached from it, and what is reached is above it. -/
theorem resolvable_iff :
    Resolvable decls ↔ ∀ decl ∈ decls, ¬ Unresolved decls decl.name := by
  constructor
  · rintro hresolvable decl hmem ⟨reached, hreached, hbad⟩
    have hdeclared : IsDeclared decls reached := by
      cases hreached with
      | refl => exact ⟨decl, hmem, rfl⟩
      | tail _ hstep => exact hresolvable.declared _ _ hstep
    rcases hbad with hmissing | hcycle
    · exact hmissing hdeclared
    · exact hresolvable.acyclic reached hcycle
  · intro h
    constructor
    -- a missing parent would already be reached from its child
    · rintro child parent hparent
      obtain ⟨decl, hmem, rfl, -⟩ := id hparent
      have hsound : ¬ Unresolved decls parent :=
        fun hbad => h decl hmem (hbad.of_namesParent hparent)
      exact isDeclared_of_not_unresolved hsound
    · intro name hcycle
      obtain ⟨parent, ⟨decl, hmem, rfl, -⟩, -⟩ := TransGen.head'_iff.1 hcycle
      exact h decl hmem ⟨decl.name, .refl, .inr hcycle⟩

end RecordQuery
