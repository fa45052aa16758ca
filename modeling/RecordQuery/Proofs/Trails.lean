import Mathlib.Data.List.Forall2
import RecordQuery.Proofs.Trimming

/-!
# Trimming takes away what is hidden and nothing else

Dropping an item moves the items behind it, so the place of a value in a trimmed answer does not say
where the value stood before. Its *trail* does: the values around it, the outermost first, each with
the key under which it stands, and last the value itself. Listed from left to right, the trails of a
value tell what stands in it, where, and in which order.

* `Value.trails` — the trails to a value and to all that stands inside it.
* `Trail.outline` — a trail that forgets what else stands inside the values along it. A list or a
  map without anything in it still leaves a trail.
* `Trail.Exposed` — no value along a trail is a hidden record.
* `Value.eq_of_inside` — a value is known by the outlines of its trails.
* `Value.outlines_trim?` — the trails of a trimmed value are the exposed trails of the value.
* `Record.trimAll_exact` — an answer is made of the records that are not hidden, in their order, and
  what stands in their properties is what stood there on an exposed trail.
-/

namespace RecordQuery

-- ---------------------------------------------------------------------------
-- Trails
-- ---------------------------------------------------------------------------

namespace Value

/-- A value without what stands inside it. -/
def head : Value → Value
  | .list _ => .list []
  | .map _ => .map []
  | v => v

/-- A value is a record that came with its properties, and that record is hidden. -/
def IsHidden (hidden : Record → Prop) : Value → Prop
  | .map entries => isRecord entries = true ∧ hidden (Record.ofEntries entries)
  | _ => False

instance {hidden : Record → Prop} [DecidablePred hidden] : DecidablePred (IsHidden hidden)
  | .map _ => inferInstanceAs (Decidable (_ ∧ _))
  | .null | .bool _ | .int _ | .float _ | .string _ | .list _ => inferInstanceAs (Decidable False)

end Value

/-- A value where it stands: under a key of a map, or without one in a list. -/
structure Placed where
  key : Option String
  value : Value

/-- The values around a value, the outermost first, and the value itself. -/
abbrev Trail := List Placed

namespace Trail

/-- The keys along a trail, and each value without what stands inside it. -/
def outline (trail : Trail) : Trail := trail.map fun p => ⟨p.key, p.value.head⟩

/-- No value along a trail is a hidden record. -/
def Exposed (hidden : Record → Prop) (trail : Trail) : Prop :=
  ∀ p ∈ trail, ¬ p.value.IsHidden hidden

instance {hidden : Record → Prop} [DecidablePred hidden] : DecidablePred (Exposed hidden) :=
  fun trail => inferInstanceAs (Decidable (∀ p ∈ trail, _))

/-- The trail to a value, and those that lead further to what stands inside it. -/
def through (p : Placed) (inner : List Trail) : List Trail := [p] :: inner.map (p :: ·)

end Trail

namespace Value

mutual

/-- The trails to a value and to all that stands inside it, from left to right. -/
def trails : Value → Option String → List Trail
  | .list items, key => Trail.through ⟨key, .list items⟩ (itemTrails items)
  | .map entries, key => Trail.through ⟨key, .map entries⟩ (entryTrails entries)
  | .null, key => Trail.through ⟨key, .null⟩ []
  | .bool flag, key => Trail.through ⟨key, .bool flag⟩ []
  | .int n, key => Trail.through ⟨key, .int n⟩ []
  | .float x, key => Trail.through ⟨key, .float x⟩ []
  | .string text, key => Trail.through ⟨key, .string text⟩ []
  termination_by structural v => v

/-- The trails to the items of a list and to all that stands inside them. -/
def itemTrails : List Value → List Trail
  | [] => []
  | item :: rest => trails item none ++ itemTrails rest
  termination_by structural items => items

/-- The trails to the values of a map and to all that stands inside them. -/
def entryTrails : List (String × Value) → List Trail
  | [] => []
  | (key, value) :: rest => trails value (some key) ++ entryTrails rest
  termination_by structural entries => entries

end

theorem trails_eq_through (v : Value) (key : Option String) :
    ∃ inner, trails v key = Trail.through ⟨key, v⟩ inner := by
  cases v <;> exact ⟨_, by rw [trails]⟩

end Value

namespace Trail

/-- Outlining trails through a value outlines the value and the rest of each. -/
theorem map_outline_through (p : Placed) (inner : List Trail) :
    (through p inner).map outline =
      through ⟨p.key, p.value.head⟩ (inner.map outline) := by
  rw [through, through, List.map_cons, List.map_map, List.map_map]
  rfl

theorem exposed_cons {hidden : Record → Prop} {p : Placed} {trail : Trail} :
    Exposed hidden (p :: trail) ↔ ¬ p.value.IsHidden hidden ∧ Exposed hidden trail :=
  List.forall_mem_cons

variable {hidden : Record → Prop} [DecidablePred hidden]

/-- No trail through a hidden record is exposed. -/
theorem filter_through_of_isHidden {p : Placed} (hp : p.value.IsHidden hidden)
    (inner : List Trail) : (through p inner).filter (fun t => t.Exposed hidden) = [] := by
  rw [List.filter_eq_nil_iff]
  intro trail htrail
  have hmem : p ∈ trail := by
    rcases List.mem_cons.1 htrail with rfl | htrail
    · exact List.mem_cons_self ..
    · obtain ⟨rest, -, rfl⟩ := List.mem_map.1 htrail
      exact List.mem_cons_self ..
  rw [decide_eq_true_eq]
  exact fun hexposed => hexposed p hmem hp

/-- Whether a trail through a value that is not hidden is exposed depends on the rest of it. -/
theorem filter_through {p : Placed} (hp : ¬ p.value.IsHidden hidden) (inner : List Trail) :
    (through p inner).filter (fun t => t.Exposed hidden) =
      through p (inner.filter fun t => t.Exposed hidden) := by
  have hhere : Exposed hidden [p] := exposed_cons.2 ⟨hp, by simp [Exposed]⟩
  have hrest : (fun t => decide (Exposed hidden t)) ∘ (p :: ·) =
      fun t => decide (Exposed hidden t) := by
    funext trail
    simp [exposed_cons, hp]
  rw [through, through, List.filter_cons, if_pos (decide_eq_true hhere), List.filter_map, hrest]

end Trail

-- ---------------------------------------------------------------------------
-- What is known by its trails
-- ---------------------------------------------------------------------------

namespace Value

/-- The outlined trails to what stands inside a value, without the value in front. -/
def inside : Value → List Trail
  | .list items => (itemTrails items).map Trail.outline
  | .map entries => (entryTrails entries).map Trail.outline
  | _ => []

theorem map_outline_trails (v : Value) (key : Option String) :
    (trails v key).map Trail.outline = Trail.through ⟨key, v.head⟩ v.inside := by
  cases v <;> rw [trails, Trail.map_outline_through] <;> rfl

/-- The outlined trails of a list are those of its first item and those of the others. -/
theorem map_outline_itemTrails (item : Value) (rest : List Value) :
    (itemTrails (item :: rest)).map Trail.outline =
      Trail.through ⟨none, item.head⟩ item.inside ++ (itemTrails rest).map Trail.outline := by
  rw [itemTrails, List.map_append, map_outline_trails]

/-- The outlined trails of a map are those of its first value, under its key, and those of the
others. -/
theorem map_outline_entryTrails (key : String) (value : Value) (rest : List (String × Value)) :
    (entryTrails ((key, value) :: rest)).map Trail.outline =
      Trail.through ⟨some key, value.head⟩ value.inside ++
        (entryTrails rest).map Trail.outline := by
  rw [entryTrails, List.map_append, map_outline_trails]

end Value

namespace Trail

/-- The trails to values that stand side by side, and into them: the first of the trails ends at the
first of the values. -/
structure SideBySide (trails : List Trail) : Prop where
  ne_nil : ∀ trail ∈ trails, trail ≠ []
  first : ∀ trail ∈ trails.head?, trail.length = 1

theorem sideBySide_nil : SideBySide [] := ⟨by simp, by simp⟩

/-- The trails of one more value stand in front of those of the others. -/
theorem SideBySide.cons {p : Placed} {inner rest : List Trail} (hrest : SideBySide rest) :
    SideBySide (through p inner ++ rest) := by
  constructor
  · intro t ht
    rcases List.mem_append.1 ht with ht | ht
    · rcases List.mem_cons.1 ht with rfl | ht
      · exact List.cons_ne_nil _ _
      · obtain ⟨u, -, rfl⟩ := List.mem_map.1 ht
        exact List.cons_ne_nil _ _
    · exact hrest.ne_nil t ht
  · intro t ht
    cases ht
    rfl

/-- Trails are cut in one place only, where one of length one follows longer ones. So two ways to
cut a list of them are the same. -/
theorem append_inj_of_length {front back others rest : List Trail}
    (hfront : ∀ t ∈ front, t.length ≠ 1) (hothers : ∀ t ∈ others, t.length ≠ 1)
    (hback : ∀ t ∈ back.head?, t.length = 1) (hrest : ∀ t ∈ rest.head?, t.length = 1)
    (h : front ++ back = others ++ rest) : front = others ∧ back = rest := by
  induction front generalizing others with
  | nil =>
    cases others with
    | nil => exact ⟨rfl, h⟩
    | cons t ts =>
      rw [List.nil_append] at h
      exact absurd (hback t (by rw [h]; rfl)) (hothers t (List.mem_cons_self ..))
  | cons t ts ih =>
    -- the fronts have no trail of length one, so neither ends before the other
    cases others with
    | nil =>
      rw [List.nil_append] at h
      exact absurd (hrest t (by rw [← h]; rfl)) (hfront t (List.mem_cons_self ..))
    | cons u us =>
      obtain ⟨rfl, htail⟩ := List.cons.inj h
      obtain ⟨rfl, rfl⟩ := ih (fun t ht => hfront t (List.mem_cons_of_mem _ ht))
        (fun t ht => hothers t (List.mem_cons_of_mem _ ht)) htail
      exact ⟨rfl, rfl⟩

/-- The trails to a value end where the next one without anything in front of it begins. -/
theorem through_append_inj {p q : Placed} {inner front others rest : List Trail}
    (hinner : SideBySide inner) (hfront : SideBySide front) (hothers : SideBySide others)
    (hrest : SideBySide rest) (h : through p inner ++ others = through q front ++ rest) :
    p = q ∧ inner = front ∧ others = rest := by
  -- all trails to what stands in a value are longer than the trail to the value itself
  have hlong : ∀ {p : Placed} {ts : List Trail}, SideBySide ts →
      ∀ t ∈ ts.map (p :: ·), t.length ≠ 1 := by
    intro p ts hts t ht
    obtain ⟨u, hu, rfl⟩ := List.mem_map.1 ht
    have hu := List.length_pos_iff.2 (hts.ne_nil u hu)
    rw [List.length_cons]
    omega
  obtain ⟨hhead, htail⟩ := List.cons.inj h
  obtain rfl : p = q := List.head_eq_of_cons_eq hhead
  obtain ⟨hmap, rfl⟩ := append_inj_of_length (hlong hinner) (hlong hfront) hothers.first hrest.first
    htail
  exact ⟨rfl, (List.map_injective_iff.2 (List.cons_injective)) hmap, rfl⟩

end Trail

namespace Value

/-- The items of a list stand side by side. -/
theorem sideBySide_items (items : List Value) :
    Trail.SideBySide ((itemTrails items).map Trail.outline) := by
  induction items with
  | nil => exact Trail.sideBySide_nil
  | cons item rest ih =>
    rw [map_outline_itemTrails]
    exact ih.cons

/-- The values of a map stand side by side. -/
theorem sideBySide_entries (entries : List (String × Value)) :
    Trail.SideBySide ((entryTrails entries).map Trail.outline) := by
  induction entries with
  | nil => exact Trail.sideBySide_nil
  | cons entry rest ih =>
    rw [map_outline_entryTrails]
    exact ih.cons

/-- Whatever stands inside a value stands side by side. -/
theorem sideBySide_inside (v : Value) : Trail.SideBySide v.inside := by
  cases v with
  | list items => exact sideBySide_items items
  | map entries => exact sideBySide_entries entries
  | _ => exact Trail.sideBySide_nil

mutual

/-- A value is known by itself without what stands inside it, and by the trails to that. -/
theorem eq_of_inside : ∀ {v w : Value}, v.head = w.head → v.inside = w.inside → v = w
  | .list items, w, hhead, h => by
    cases w <;> cases hhead
    rw [eq_of_itemOutlines h]
  | .map entries, w, hhead, h => by
    cases w <;> cases hhead
    rw [eq_of_entryOutlines h]
  | .null, w, hhead, _ | .bool _, w, hhead, _ | .int _, w, hhead, _ | .float _, w, hhead, _
  | .string _, w, hhead, _ => by
    cases w <;> cases hhead
    rfl
  termination_by structural v => v

/-- Items are known by their trails: the first ends where a trail of length one begins again. -/
theorem eq_of_itemOutlines : ∀ {items others : List Value},
    (itemTrails items).map Trail.outline = (itemTrails others).map Trail.outline → items = others
  | [], [], _ => rfl
  | [], item :: rest, h | item :: rest, [], h => by
    rw [map_outline_itemTrails] at h
    cases h
  | item :: rest, other :: more, h => by
    rw [map_outline_itemTrails, map_outline_itemTrails] at h
    obtain ⟨hplaced, hinside, hbehind⟩ := Trail.through_append_inj (sideBySide_inside item)
      (sideBySide_inside other) (sideBySide_items rest) (sideBySide_items more) h
    obtain ⟨-, hhead⟩ := Placed.mk.inj hplaced
    rw [eq_of_inside hhead hinside, eq_of_itemOutlines hbehind]
  termination_by structural items => items

/-- Entries are known by their trails, which tell the keys as well: maps with the same outlines are
the same. -/
theorem eq_of_entryOutlines : ∀ {entries others : List (String × Value)},
    (entryTrails entries).map Trail.outline = (entryTrails others).map Trail.outline →
      entries = others
  | [], [], _ => rfl
  | [], (key, value) :: rest, h | (key, value) :: rest, [], h => by
    rw [map_outline_entryTrails] at h
    cases h
  | (key, value) :: rest, (other, found) :: more, h => by
    rw [map_outline_entryTrails, map_outline_entryTrails] at h
    obtain ⟨hplaced, hinside, hbehind⟩ := Trail.through_append_inj (sideBySide_inside value)
      (sideBySide_inside found) (sideBySide_entries rest) (sideBySide_entries more) h
    obtain ⟨hkey, hhead⟩ := Placed.mk.inj hplaced
    rw [Option.some.inj hkey, eq_of_inside hhead hinside, eq_of_entryOutlines hbehind]
  termination_by structural entries => entries

end

end Value

-- ---------------------------------------------------------------------------
-- The trails of trimmed values
-- ---------------------------------------------------------------------------

namespace Value

variable {keep : Record → Bool} {hidden : Record → Prop}

/-- A value that is dropped is a hidden record. -/
theorem trim?_eq_none_iff (hkeep : ∀ r, keep r = false ↔ hidden r) {v : Value} :
    trim? keep v = none ↔ v.IsHidden hidden := by
  cases v with
  | map entries =>
    rw [trim?, IsHidden, ← hkeep]
    simp
  | _ => simp [trim?, IsHidden]

variable [DecidablePred hidden]

/-- No trail to or into a value that is dropped was exposed. -/
theorem filter_trails_of_trim?_eq_none (hkeep : ∀ r, keep r = false ↔ hidden r) {v : Value}
    (h : trim? keep v = none) (key : Option String) :
    (trails v key).filter (fun t => t.Exposed hidden) = [] := by
  obtain ⟨inner, htrails⟩ := trails_eq_through v key
  rw [htrails]
  exact Trail.filter_through_of_isHidden ((trim?_eq_none_iff hkeep).1 h) inner

/-- Once the trails into a value are those that were exposed, so are the trails to it. -/
theorem outlines_through {v w : Value} {key : Option String} {inner trimmed : List Trail}
    (hexposed : ¬ v.IsHidden hidden) (hhead : w.head = v.head)
    (hinner : trimmed.map Trail.outline =
      (inner.filter fun t => t.Exposed hidden).map Trail.outline) :
    (Trail.through ⟨key, w⟩ trimmed).map Trail.outline =
      ((Trail.through ⟨key, v⟩ inner).filter fun t => t.Exposed hidden).map Trail.outline := by
  have hp : ¬ (Placed.mk key v).value.IsHidden hidden := hexposed
  rw [Trail.filter_through hp, Trail.map_outline_through, Trail.map_outline_through, hinner, hhead]

mutual

/-- The trails of a trimmed value are the exposed trails of the value, in the same order and with
the same keys. -/
theorem outlines_trim? (hkeep : ∀ r, keep r = false ↔ hidden r) (key : Option String) :
    ∀ {v w : Value}, trim? keep v = some w →
      (trails w key).map Trail.outline =
        ((trails v key).filter fun t => t.Exposed hidden).map Trail.outline
  | .null, _, h | .bool _, _, h | .int _, _, h | .float _, _, h | .string _, _, h => by
    cases h
    exact outlines_through id rfl rfl
  | .list items, _, h => by
    cases h
    rw [trails, trails]
    exact outlines_through id rfl (outlines_trimItems hkeep items)
  | .map entries, w, h => by
    -- something is left of the map, so it is not hidden, and its own trail is kept
    have hexposed : ¬ (map entries).IsHidden hidden := by
      rw [← trim?_eq_none_iff hkeep, h]
      exact Option.some_ne_none w
    rw [trim?] at h
    split at h
    · cases h
    · cases h
      rw [trails, trails]
      exact outlines_through hexposed rfl (outlines_trimEntries hkeep entries)
  termination_by structural v => v

/-- The trails of a trimmed list are the exposed trails of its items. -/
theorem outlines_trimItems (hkeep : ∀ r, keep r = false ↔ hidden r) : ∀ items : List Value,
    (itemTrails (trimItems keep items)).map Trail.outline =
      ((itemTrails items).filter fun t => t.Exposed hidden).map Trail.outline
  | [] => rfl
  | item :: rest => by
    rw [trimItems, itemTrails, List.filter_append, List.map_append, ← outlines_trimItems hkeep rest]
    cases htrim : trim? keep item with
    | none => rw [filter_trails_of_trim?_eq_none hkeep htrim]; rfl
    | some w =>
      rw [← outlines_trim? hkeep none htrim, ← List.map_append]
      rfl
  termination_by structural items => items

/-- The trails of a trimmed map are the exposed trails of its values. -/
theorem outlines_trimEntries (hkeep : ∀ r, keep r = false ↔ hidden r) :
    ∀ entries : List (String × Value),
    (entryTrails (trimEntries keep entries)).map Trail.outline =
      ((entryTrails entries).filter fun t => t.Exposed hidden).map Trail.outline
  | [] => rfl
  | (key, value) :: rest => by
    rw [trimEntries, entryTrails, List.filter_append, List.map_append,
      ← outlines_trimEntries hkeep rest]
    cases htrim : trim? keep value with
    | none => rw [filter_trails_of_trim?_eq_none hkeep htrim]; rfl
    | some w =>
      rw [← outlines_trim? hkeep (some key) htrim, ← List.map_append]
      rfl
  termination_by structural entries => entries

end

end Value

-- ---------------------------------------------------------------------------
-- Trimmed answers
-- ---------------------------------------------------------------------------

namespace Record

/-- A record is hidden exactly if it is not shown. -/
theorem isShown_eq_false_iff {history : Bool} {viewer : Option Viewer} {r : Record} :
    isShown history viewer r = false ↔ r.IsHidden history viewer := by
  have hshown := @isShown_iff history viewer r
  cases h : isShown history viewer r with
  | false => simpa [h] using hshown
  | true => simpa [h] using hshown

instance (history : Bool) (viewer : Option Viewer) : DecidablePred (IsHidden history viewer) :=
  fun _ => decidable_of_iff _ isShown_eq_false_iff

/-- A record of an answer and the record that it was before: the envelope tells the same identity
and deletion, and in the properties stands what stood there on an exposed trail. -/
structure IsTrimmed (hidden : Record → Prop) [DecidablePred hidden] (before after : Record) :
    Prop where
  id : after.id = before.id
  className : after.className = before.className
  deletedAt : after.deletedAt = before.deletedAt
  properties : (Value.entryTrails after.properties).map Trail.outline =
    ((Value.entryTrails before.properties).filter fun t => t.Exposed hidden).map Trail.outline
  /-- Nothing but these properties has these trails. -/
  unique : ∀ entries, (Value.entryTrails entries).map Trail.outline =
      ((Value.entryTrails before.properties).filter fun t => t.Exposed hidden).map Trail.outline →
    entries = after.properties

/-- An answer holds the records that are not hidden, in their order and each as trimmed as it should
be: what is left inside is what neither is a hidden record nor stands in one. -/
theorem trimAll_exact (history : Bool) (viewer : Option Viewer) (records : List Record) :
    let hidden := IsHidden history viewer
    List.Forall₂ (IsTrimmed hidden) (records.filter fun r => ¬ hidden r)
      (trimAll history viewer records) := by
  intro hidden
  -- a record is hidden or shown
  have hkept : (records.filter fun r => ¬ hidden r) = records.filter (isShown history viewer) := by
    apply List.filter_congr
    intro r _
    simp [hidden, ← isShown_iff]
  rw [hkept, trimAll, List.forall₂_map_right_iff]
  refine List.forall₂_same.2 fun r _ => ?_
  have hkeep : ∀ r, isShown history viewer r = false ↔ IsHidden history viewer r :=
    fun _ => isShown_eq_false_iff
  have houtlines := Value.outlines_trimEntries hkeep r.properties
  exact ⟨rfl, rfl, rfl, houtlines,
    -- a map with these outlines has those of the trimmed record, and outlines tell a map
    fun entries h => Value.eq_of_entryOutlines (h.trans houtlines.symm)⟩

end Record

end RecordQuery
