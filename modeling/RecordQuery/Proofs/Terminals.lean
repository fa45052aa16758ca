import RecordQuery.Proofs.Exchange
import RecordQuery.Proofs.Flattening

/-!
# Terminal classes

A schema looks for its terminal classes among the ancestors that the classes list, which reach all
the way up. The declarations tell which ones these are by the direct parents alone: a class that is
listed somewhere is the direct parent of some class. A class below counts whether or not it is
abstract or embedded itself.

* `Schema.mem_ancestorNames_iff` — which classes are listed as ancestors.
* `Schema.terminalClasses_ofDeclarations` — which classes are terminal, and that each of them is
  counted when nothing else is asked for.
-/

namespace RecordQuery

open Relation

/-- A class is declared neither abstract nor embedded, and no class has it as a direct parent. -/
structure IsTerminal (decls : List ClassDecl) (name : String) : Prop where
  concrete : ∃ decl ∈ decls, decl.name = name ∧ decl.isAbstract = false ∧ decl.embedded = false
  childless : ∀ decl ∈ decls, name ∉ decl.parents

namespace Schema

variable {decls : List ClassDecl} {schema : Schema} {name : String}

theorem pairwise_terminalClasses (h : Dictionary.Ordered schema.classes) :
    schema.terminalClasses.Pairwise (· < ·) :=
  List.pairwise_map.2 (h.filter _)

/-- What a schema looks for in a terminal class: it is neither abstract nor embedded, and no class
lists it as an ancestor. -/
theorem mem_terminalClasses (h : Dictionary.Ordered schema.classes) :
    name ∈ schema.terminalClasses ↔
      (∃ model, schema.model? name = some model ∧ model.isAbstract = false ∧
        model.embedded = false) ∧ name ∉ schema.ancestorNames := by
  have hentry (model : ClassModel) : schema.model? name = some model ↔
      (name, model) ∈ schema.classes := Dictionary.find?_eq_some_iff h
  simp only [hentry]
  rw [terminalClasses, List.mem_map]
  constructor
  · rintro ⟨⟨_, model⟩, hkept, rfl⟩
    obtain ⟨hmem, hterminal⟩ := List.mem_filter.1 hkept
    simp only [Bool.and_eq_true, Bool.not_eq_true', List.contains_eq_mem,
      decide_eq_false_iff_not] at hterminal
    exact ⟨⟨model, hmem, hterminal.1⟩, hterminal.2⟩
  · rintro ⟨⟨model, hmem, habstract, hembedded⟩, hchildless⟩
    refine ⟨(name, model), List.mem_filter.2 ⟨hmem, ?_⟩, rfl⟩
    simp [habstract, hembedded, hchildless]

section Distinct

variable (hnames : (decls.map (·.name)).Nodup)
include hnames

/-- The ancestors that are listed anywhere are the direct parents, for an ancestor of a class is a
parent of that class or of another ancestor. -/
theorem mem_ancestorNames_iff (h : IsWhole decls schema) :
    name ∈ schema.ancestorNames ↔ ∃ decl ∈ decls, name ∈ decl.parents := by
  rw [ancestorNames, List.mem_flatMap]
  constructor
  · rintro ⟨⟨className, model⟩, hentry, hlisted⟩
    have hmodel : schema.model? className = some model :=
      (Dictionary.find?_eq_some_iff h.ordered).2 hentry
    have hancestor := (h.mem_inherits_iff hnames hmodel).1 hlisted
    -- the last step on the way up to an ancestor is one to a direct parent
    obtain ⟨child, -, decl, hmem, -, hparent⟩ := TransGen.tail'_iff.1 hancestor
    exact ⟨decl, hmem, hparent⟩
  · rintro ⟨decl, hmem, hparent⟩
    obtain ⟨model, hmodel⟩ := Option.isSome_iff_exists.1 (h.registered decl hmem)
    have hancestor : IsAncestor decls decl.name name := .single ⟨decl, hmem, rfl, hparent⟩
    exact ⟨_, Dictionary.mem_of_find? hmodel, (h.mem_inherits_iff hnames hmodel).2 hancestor⟩

/-- Terminal classes are abstract and embedded as they are declared, and have no direct children. -/
theorem mem_terminalClasses_iff (h : IsWhole decls schema) :
    name ∈ schema.terminalClasses ↔ IsTerminal decls name := by
  rw [mem_terminalClasses h.ordered, mem_ancestorNames_iff hnames h]
  constructor
  -- a class of the schema has the flags of its declaration, and its children are declared
  · rintro ⟨⟨model, hmodel, habstract, hembedded⟩, hchildless⟩
    obtain ⟨decl, hmem, rfl⟩ := (h.resolves name (by rw [hmodel]; rfl)).isDeclared
    obtain ⟨_, -, hflat⟩ := h.isFlattened hnames hmem hmodel
    refine ⟨⟨decl, hmem, rfl, ?_, ?_⟩, fun other hother hparent => ?_⟩
    · rw [← hflat.isAbstract, habstract]
    · rw [← hflat.embedded, hembedded]
    · exact hchildless ⟨other, hother, hparent⟩
  · rintro ⟨⟨decl, hmem, rfl, habstract, hembedded⟩, hchildless⟩
    obtain ⟨model, hmodel⟩ := Option.isSome_iff_exists.1 (h.registered decl hmem)
    obtain ⟨_, -, hflat⟩ := h.isFlattened hnames hmem hmodel
    refine ⟨⟨model, hmodel, ?_, ?_⟩, fun ⟨other, hother, hparent⟩ => ?_⟩
    · rw [hflat.isAbstract, habstract]
    · rw [hflat.embedded, hembedded]
    · exact hchildless other hother hparent

end Distinct

/-- The terminal classes of a schema, each once and in order, are the declared classes that are
neither abstract nor embedded and that no class has as a direct parent. When nothing else is asked
for, each of them is counted by a statement of its own and has the one count that its answer comes
to. -/
theorem terminalClasses_ofDeclarations (hnames : (decls.map (·.name)).Nodup)
    (h : ofDeclarations decls = .ok schema) :
    schema.terminalClasses.Pairwise (· < ·) ∧
      (∀ name, name ∈ schema.terminalClasses ↔ IsTerminal decls name) ∧
      ∀ (options : CountOptions) (answers : List (List Record)) (rest : List Answer),
        options.classNames = none → answers.length = schema.terminalClasses.length →
          let counts :=
            schema.terminalClasses.zip (answers.map (ClassCount.ofRows options.bySource))
          Dictionary.keys counts = schema.terminalClasses ∧
            Session.run (selectCounts schema options).run (answers.map .ok ++ rest) =
              ⟨.ok counts, countStatements options schema.terminalClasses, rest⟩ := by
  have hwhole := (ofDeclarations_eq_ok hnames).1 h
  have hsorted := pairwise_terminalClasses hwhole.ordered
  refine ⟨hsorted, fun name => mem_terminalClasses_iff hnames hwhole, ?_⟩
  -- the counts are keyed by classes in order, so collecting them changes nothing
  intro options answers rest hwanted hlength counts
  have hkeys : Dictionary.keys counts = schema.terminalClasses :=
    List.map_fst_zip (by rw [List.length_map, hlength])
  have hordered : Dictionary.Ordered counts := List.pairwise_map.1 (by rwa [← hkeys] at hsorted)
  have hclasses : CountsClasses schema options.classNames schema.terminalClasses := by
    rw [hwanted]
    exact .terminal
  have hstatements : answers.length = (countStatements options schema.terminalClasses).length := by
    rw [hlength, countStatements, List.length_map]
  refine ⟨hkeys, ?_⟩
  rw [(StoreM.asks_selectCounts hclasses).answered answers rest hstatements,
    Dictionary.ofList_eq_self hordered]

/-- A class with an abstract child, one with two parents, an embedded one and one on its own. -/
theorem terminalClasses_ofDeclarations_mixed :
    let decls : List ClassDecl := [{ name := "Target", parents := ["Gene", "Drug"] },
      { name := "Drug", parents := ["V"] }, { name := "Gene", parents := ["V"] },
      { name := "V", isAbstract := true }, { name := "Disease" },
      { name := "Rare", parents := ["Disease"], isAbstract := true },
      { name := "Part", embedded := true }, { name := "Alone" }]
    (decls.map (·.name)).Nodup ∧ ∃ schema, ofDeclarations decls = .ok schema ∧
      schema.terminalClasses = ["Alone", "Target"] ∧ ¬ IsTerminal decls "Disease" ∧
      Session.run (selectCounts schema {}).run
          [.ok [{ properties := [("cnt", .int 3)] }], .ok [], .ok []] =
        ⟨.ok [("Alone", .total 3), ("Target", .total 0)],
          [⟨"SELECT count(*) AS cnt FROM Alone WHERE deletedAt IS NULL", []⟩,
            ⟨"SELECT count(*) AS cnt FROM Target WHERE deletedAt IS NULL", []⟩],
          [.ok []]⟩ := by
  intro decls
  have hnames : (decls.map (·.name)).Nodup := by decide
  obtain ⟨schema, hschema, hterminal⟩ : ∃ schema, ofDeclarations decls = .ok schema ∧
      schema.terminalClasses = ["Alone", "Target"] := ⟨_, by cbv, by decide +kernel⟩
  obtain ⟨-, hiff, hcounts⟩ := terminalClasses_ofDeclarations hnames hschema
  refine ⟨hnames, schema, hschema, hterminal, ?_, ?_⟩
  · rw [← hiff, hterminal]
    decide
  · have hrun := hcounts {} [[{ properties := [("cnt", .int 3)] }], []] [.ok []] rfl
    rw [hterminal] at hrun
    exact (hrun rfl).2

end Schema

end RecordQuery
