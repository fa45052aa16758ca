import RecordQuery.Proofs.Retrimming

/-!
# Granting more

A policy is made of grants, one after another. What counts is which classes they give to which
groups: neither their order nor how classes are put together in one grant, nor a grant that is made
twice. A viewer under more grants is shown all that one under fewer is shown. The items of a list
stand at other places where more of it is kept, so the two answers are compared place by place in
what they were before, where either shows what is left or nothing.

* `ReadPolicy.allows_ofGrants` — what a policy of grants allows.
* `Value.Widen`, `Record.Widen` — what is left for one viewer is left for another where it stood.
* `Value.widen_trim?` — so it is if the second may see what the first may see.
* `Record.trimAll_ofGrants` — answers under fewer grants and under more.
-/

namespace RecordQuery

-- ---------------------------------------------------------------------------
-- Policies
-- ---------------------------------------------------------------------------

namespace ReadPolicy

/-- The policy of grants that are made one after another. Each names a group and the classes that
its members may read. -/
def ofGrants (grants : List (String × List String)) : ReadPolicy :=
  grants.foldl (fun policy g => policy.grant g.1 g.2) {}

/-- One of the grants gives a class to a group. -/
def IsGranted (grants : List (String × List String)) (group className : String) : Prop :=
  ∃ classNames, (group, classNames) ∈ grants ∧ className ∈ classNames

/-- A policy has a class in its list for a group. -/
def Allows (policy : ReadPolicy) (group className : String) : Prop :=
  className ∈ (Dictionary.find? group policy.readable).getD []

variable {policy policy' : ReadPolicy} {group className : String}

/-- A grant adds what it names. -/
theorem allows_grant {granted : String} {classNames : List String} :
    (policy.grant granted classNames).Allows group className ↔
      policy.Allows group className ∨ granted = group ∧ className ∈ classNames := by
  rw [Allows, Allows, grant, Dictionary.find?_insert]
  by_cases hgroup : granted = group
  · subst hgroup
    simp
  · simp [hgroup]

/-- A run of grants adds what any one of them names to what the policy had before. -/
theorem allows_foldl_grant {grants : List (String × List String)} :
    (grants.foldl (fun policy g => policy.grant g.1 g.2) policy).Allows group className ↔
      policy.Allows group className ∨ IsGranted grants group className := by
  induction grants generalizing policy with
  | nil => simp [IsGranted]
  | cons g rest ih =>
    obtain ⟨granted, classNames⟩ := g
    have hcons : IsGranted ((granted, classNames) :: rest) group className ↔
        (granted = group ∧ className ∈ classNames) ∨ IsGranted rest group className := by
      simp [IsGranted, or_and_right, exists_or, eq_comm]
    rw [List.foldl_cons, ih, allows_grant, hcons, or_assoc]

/-- The policy of grants allows what one of them gives. -/
theorem allows_ofGrants {grants : List (String × List String)} :
    (ofGrants grants).Allows group className ↔ IsGranted grants group className := by
  rw [ofGrants, allows_foldl_grant]
  simp [Allows, Dictionary.find?]

/-- The members of a group may read a class if it or every class is allowed to them. -/
theorem groupMayRead_iff :
    policy.groupMayRead className group = true ↔
      policy.Allows group className ∨ policy.Allows group everyClass := by
  rw [groupMayRead, Allows, Allows]
  cases Dictionary.find? group policy.readable with
  | none => simp
  | some classNames => simp

/-- Where more is allowed more may be read. -/
theorem mayRead_mono (h : ∀ group className, policy.Allows group className →
    policy'.Allows group className) {user r : Record} (hread : policy.mayRead user r = true) :
    policy'.mayRead user r = true := by
  rw [mayRead] at hread ⊢
  cases hclass : r.className with
  | none => rfl
  | some className =>
    rw [hclass] at hread
    obtain ⟨group, hgroup, hallowed⟩ := List.any_eq_true.1 hread
    refine List.any_eq_true.2 ⟨group, hgroup, ?_⟩
    rw [groupMayRead_iff] at hallowed ⊢
    exact hallowed.imp (h _ _) (h _ _)

/-- What may be read depends on what is allowed only. -/
theorem viewer_congr (h : ∀ group className, policy.Allows group className ↔
    policy'.Allows group className) (user : Record) : policy.viewer user = policy'.viewer user := by
  have hread : policy.mayRead = policy'.mayRead := by
    funext user r
    exact Bool.eq_iff_iff.2 ⟨mayRead_mono fun g c => (h g c).1, mayRead_mono fun g c => (h g c).2⟩
  rw [viewer, viewer, hread]

end ReadPolicy

-- ---------------------------------------------------------------------------
-- Two views
-- ---------------------------------------------------------------------------

/-- Something and what two viewers are shown of it, if anything. -/
structure Views (α : Type) where
  whole : α
  few : Option α
  many : Option α

/-- Of a value the second viewer is shown all that the first is shown, each part of it at the place
where it stood in the value. -/
inductive Value.Widen : Views Value → Prop
  | hidden (whole : Value) (many : Option Value) : Widen ⟨whole, none, many⟩
  | same (v : Value) : Widen ⟨v, some v, some v⟩
  | list {items : List (Views Value)} : (∀ item ∈ items, Widen item) →
      Widen ⟨.list (items.map (·.whole)), some (.list (items.filterMap (·.few))),
        some (.list (items.filterMap (·.many)))⟩
  | map {entries : List (String × Views Value)} : (∀ entry ∈ entries, Widen entry.2) →
      Widen ⟨.map (entries.map fun e => (e.1, e.2.whole)),
        some (.map (entries.filterMap fun e => e.2.few.map fun v => (e.1, v))),
        some (.map (entries.filterMap fun e => e.2.many.map fun v => (e.1, v)))⟩

/-- The second viewer is shown a record if the first is, with the same envelope, and all that the
first is shown of its properties. -/
inductive Record.Widen : Views Record → Prop
  | hidden (whole : Record) (many : Option Record) : Widen ⟨whole, none, many⟩
  | shown {whole : Record} {few many : List (String × Value)} :
      Value.Widen ⟨.map whole.properties, some (.map few), some (.map many)⟩ →
        Widen ⟨whole, some { whole with properties := few },
          some { whole with properties := many }⟩

namespace Value

variable {few many : Record → Bool}

/-- A list is widened when each of its items is: what is left of it for either viewer are the items
left, one after the other. -/
theorem widen_list {items : List Value}
    (h : ∀ item ∈ items, Widen ⟨item, trim? few item, trim? many item⟩) :
    Widen ⟨.list items, some (.list (trimItems few items)),
      some (.list (trimItems many items))⟩ := by
  have hviews := @Widen.list (items.map fun item => ⟨item, trim? few item, trim? many item⟩)
    (List.forall_mem_map.2 h)
  rw [trimItems_eq_filterMap, trimItems_eq_filterMap]
  simpa [List.filterMap_map, Function.comp_def] using hviews

/-- A map is widened when the value under each of its keys is: either viewer keeps the key of a
value that is left. -/
theorem widen_map {entries : List (String × Value)}
    (h : ∀ entry ∈ entries, Widen ⟨entry.2, trim? few entry.2, trim? many entry.2⟩) :
    Widen ⟨.map entries, some (.map (trimEntries few entries)),
      some (.map (trimEntries many entries))⟩ := by
  have hviews := @Widen.map
    (entries.map fun entry => (entry.1, ⟨entry.2, trim? few entry.2, trim? many entry.2⟩))
    (List.forall_mem_map.2 h)
  rw [trimEntries_eq_filterMap, trimEntries_eq_filterMap]
  simpa [List.filterMap_map, Function.comp_def] using hviews

mutual

/-- Where more is kept, all is left of a value that is left where less is kept. -/
theorem widen_trim? (h : ∀ r, few r = true → many r = true) :
    ∀ v : Value, Widen ⟨v, trim? few v, trim? many v⟩
  | .null | .bool _ | .int _ | .float _ | .string _ => .same _
  | .list items => widen_list (widen_items h items)
  | .map entries => by
    by_cases hfew : trim? few (.map entries) = none
    · rw [hfew]
      exact .hidden _ _
    · rw [trim?_map_of_ne_none hfew,
        trim?_map_of_ne_none (mt (trim?_map_eq_none_of_keeps h) hfew)]
      exact widen_map (widen_entries h entries)
  termination_by structural v => v

/-- The items of a list are widened one by one. -/
theorem widen_items (h : ∀ r, few r = true → many r = true) :
    ∀ items : List Value, ∀ item ∈ items, Widen ⟨item, trim? few item, trim? many item⟩
  | [] => List.forall_mem_nil _
  | first :: rest => List.forall_mem_cons.2 ⟨widen_trim? h first, widen_items h rest⟩
  termination_by structural items => items

/-- The values of a map are widened one by one, whatever their keys are. -/
theorem widen_entries (h : ∀ r, few r = true → many r = true) :
    ∀ entries : List (String × Value), ∀ entry ∈ entries,
      Widen ⟨entry.2, trim? few entry.2, trim? many entry.2⟩
  | [] => List.forall_mem_nil _
  | (_, value) :: rest => List.forall_mem_cons.2 ⟨widen_trim? h value, widen_entries h rest⟩
  termination_by structural entries => entries

end

end Value

-- ---------------------------------------------------------------------------
-- Answers
-- ---------------------------------------------------------------------------

namespace Record

variable {history : Bool}

/-- What is shown of a record, if it is shown. -/
def trim? (keep : Record → Bool) (r : Record) : Option Record :=
  if keep r then some (trim keep r) else none

/-- Trimming an answer drops the records that are not shown and trims each of the others in its
place. -/
theorem trimAll_eq_filterMap (viewer : Option Viewer) (records : List Record) :
    trimAll history viewer records = records.filterMap (trim? (isShown history viewer)) := by
  rw [trimAll, ← List.filterMap_eq_filter, List.map_filterMap]
  refine List.filterMap_congr fun r _ => ?_
  rw [trim?, Option.guard]
  split <;> rfl

/-- A record of the answer is hidden from the first viewer, or it is shown to both and its
properties are widened. -/
theorem widen_trim? {few many : Record → Bool} (h : ∀ r, few r = true → many r = true)
    (r : Record) : Widen ⟨r, trim? few r, trim? many r⟩ := by
  rw [trim?]
  split
  · next hfew =>
    -- `h` excludes the record that is hidden from the second viewer only
    rw [trim?, if_pos (h r hfew)]
    exact .shown (Value.widen_map (Value.widen_entries h r.properties))
  · exact .hidden r _

/-- Whoever is shown a record under some grants is shown it under more grants: the deletion test
does not look at the grants. -/
theorem isShown_ofGrants_mono {fewer more : List (String × List String)}
    (h : ∀ group className, ReadPolicy.IsGranted fewer group className →
      ReadPolicy.IsGranted more group className) (user r : Record)
    (hshown : isShown history (some ((ReadPolicy.ofGrants fewer).viewer user)) r = true) :
    isShown history (some ((ReadPolicy.ofGrants more).viewer user)) r = true := by
  rw [isShown, Bool.and_eq_true] at hshown ⊢
  refine ⟨hshown.1, ?_⟩
  have hread : (ReadPolicy.ofGrants fewer).mayRead user r = true := hshown.2
  show (ReadPolicy.ofGrants more).mayRead user r = true
  refine ReadPolicy.mayRead_mono (fun group className hallowed => ?_) hread
  rw [ReadPolicy.allows_ofGrants] at hallowed ⊢
  exact h group className hallowed

/-- One viewer under grants and under more grants. Every record that is shown under the fewer is
shown under the more, and so is every part of it, where it stood. The answer under the fewer is what
is left when the other one is trimmed again. Under grants that give the same the answers are
equal. -/
theorem trimAll_ofGrants {fewer more : List (String × List String)}
    (h : ∀ group className, ReadPolicy.IsGranted fewer group className →
      ReadPolicy.IsGranted more group className) (history : Bool) (user : Record)
    (records : List Record) :
    let few := some ((ReadPolicy.ofGrants fewer).viewer user)
    let many := some ((ReadPolicy.ofGrants more).viewer user)
    (∃ views : List (Views Record), views.map (·.whole) = records ∧
        views.filterMap (·.few) = trimAll history few records ∧
        views.filterMap (·.many) = trimAll history many records ∧ ∀ v ∈ views, Widen v) ∧
      ((∀ r ∈ records, (Value.map r.properties).WellFormed) →
        trimAll history few (trimAll history many records) = trimAll history few records) ∧
      ((∀ group className, ReadPolicy.IsGranted more group className →
          ReadPolicy.IsGranted fewer group className) →
        trimAll history few records = trimAll history many records) := by
  intro few many
  have hshown : ∀ r, isShown history few r = true → isShown history many r = true :=
    isShown_ofGrants_mono h user
  refine ⟨?_, fun hrecords => ?_, fun hback => ?_⟩
  -- each record beside what either viewer is shown of it, in the order of the answer
  · refine ⟨records.map fun r =>
      ⟨r, trim? (isShown history few) r, trim? (isShown history many) r⟩, ?_, ?_, ?_, ?_⟩
    · rw [List.map_map]
      exact List.map_id _
    · rw [List.filterMap_map, trimAll_eq_filterMap]
      rfl
    · rw [List.filterMap_map, trimAll_eq_filterMap]
      rfl
    · exact List.forall_mem_map.2 fun r _ => widen_trim? hshown r
  · exact @trimAll_trimAll history (some (ReadPolicy.ofGrants fewer, user))
      (some (ReadPolicy.ofGrants more, user)) hshown records hrecords
  -- grants that give the same classes to the same groups decide alike for every user
  · have hsame : few = many := by
      refine congrArg some (ReadPolicy.viewer_congr (fun group className => ?_) user)
      rw [ReadPolicy.allows_ofGrants, ReadPolicy.allows_ofGrants]
      exact ⟨h group className, hback group className⟩
    rw [hsame]

/-- Readers of diseases who are granted sources too, one of them twice: the disease in the list
moves up by one, and inside it the source comes back. -/
theorem trimAll_ofGrants_sources :
    let fewer := [("readers", ["Disease"])]
    let more := [("readers", ["Source"]), ("guests", ["*"]), ("readers", ["Disease", "Source"])]
    let user : Record := { properties := [("groups", .list [.string "readers"])] }
    let source : Value := .map [("@class", .string "Source")]
    let empty : Value := .map [("@class", .string "Disease")]
    let disease : Value := .map [("@class", .string "Disease"), ("source", source)]
    let record (links : List Value) : Record :=
      { className := some "Disease", properties := [("links", .list links)] }
    let records := [record [source, disease]]
    let few := some ((ReadPolicy.ofGrants fewer).viewer user)
    let many := some ((ReadPolicy.ofGrants more).viewer user)
    (∀ group className, ReadPolicy.IsGranted fewer group className →
      ReadPolicy.IsGranted more group className) ∧
      trimAll false few records = [record [empty]] ∧ trimAll false many records = records ∧
      trimAll false few (trimAll false many records) = [record [empty]] ∧
      ∃ views : List (Views Record), views.map (·.whole) = records ∧
        views.filterMap (·.few) = [record [empty]] ∧ views.filterMap (·.many) = records ∧
          ∀ v ∈ views, Widen v := by
  intro fewer more user source empty disease record records few many
  have hgranted : ∀ group className, ReadPolicy.IsGranted fewer group className →
      ReadPolicy.IsGranted more group className := by
    rintro group className ⟨classNames, hmem, hclass⟩
    obtain ⟨rfl, rfl⟩ := Prod.mk.inj (List.mem_singleton.1 hmem)
    obtain rfl := List.mem_singleton.1 hclass
    exact ⟨["Disease", "Source"], by simp [more], by simp⟩
  have hdisease : Dictionary.Ordered [("@class", Value.string "Disease"), ("source", source)] :=
    List.pairwise_pair.2 (by decide +kernel)
  have hrecord : (Value.map (record [source, disease]).properties).WellFormed := by
    simp [record, disease, source, hdisease]
  obtain ⟨hviews, hagain, -⟩ := trimAll_ofGrants hgranted false user records
  exact ⟨hgranted, rfl, rfl, hagain (by simpa [records] using hrecord), hviews⟩

end Record

end RecordQuery
