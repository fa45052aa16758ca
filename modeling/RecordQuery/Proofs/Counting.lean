import Mathlib.Algebra.GroupWithZero.Nat
import Mathlib.Algebra.Order.BigOperators.Group.List
import Mathlib.Algebra.Order.Group.Nat
import RecordQuery.Proofs.Exchange

/-!
# Splitting a count by source

A class is counted as a whole or split by source, by two statements with rows of the same kind. The
two counts agree as long as no source comes twice. Where several rows fall under one key, which
sources that are missing, null, lists or numbers all do, the split keeps the last of them.

* `ClassCount.sum_add_lostCount` — what the split lacks are the counts of the rows that are followed
  by another one with their source.
* `ClassCount.fits_ofRows`, `ClassCount.toNat_wordTotal` — numbers of 64 bits are enough for counts
  that sum below `2 ^ 64`.
* `ClassCount.isSplit_ofRows` — how the split of a list of rows relates to their total.
* `StoreM.run_selectCounts` — both ways of counting, over whole sessions.
-/

namespace RecordQuery

namespace ClassCount

/-- The number of records over all sources. -/
def sum : ClassCount → Nat
  | .total count => count
  | .bySource counts => (counts.map (·.2)).sum

/-- The number of records of a source. -/
def under? (source : String) : ClassCount → Option Nat
  | .total _ => none
  | .bySource counts => Dictionary.find? source counts

/-- Every number fits into 64 bits. -/
def Fits : ClassCount → Prop
  | .total count => count < 2 ^ 64
  | .bySource counts => ∀ entry ∈ counts, entry.2 < 2 ^ 64

end ClassCount

/-- The counts of rows, added up in words of 64 bits. -/
def wordTotal (rows : List Record) : UInt64 :=
  (rows.map fun row => UInt64.ofNat (rowCount row)).foldl (· + ·) 0

/-- The counts of the rows that are followed by another one with their source. -/
def lostCount : List Record → Nat
  | [] => 0
  | row :: rest =>
    (if rest.any fun later => sourceKey later = sourceKey row then rowCount row else 0) +
      lostCount rest

/-- A row that is followed by another one with its source counts nothing. -/
def CountsLast (rows : List Record) : Prop :=
  rows.Pairwise fun row later => sourceKey later = sourceKey row → rowCount row = 0

/-- Nothing is lost if only the last row of each source counts anything. -/
theorem lostCount_eq_zero_iff {rows : List Record} : lostCount rows = 0 ↔ CountsLast rows := by
  induction rows with
  | nil => exact ⟨fun _ => List.Pairwise.nil, fun _ => rfl⟩
  | cons row rest ih =>
    rw [lostCount, Nat.add_eq_zero_iff, ih]
    refine Iff.trans ?_ List.pairwise_cons.symm
    refine and_congr_left fun _ => ?_
    rw [ite_eq_right_iff, List.any_eq_true]
    constructor
    · intro h later hlater hkey
      exact h ⟨later, hlater, decide_eq_true hkey⟩
    · rintro h ⟨later, hlater, hkey⟩
      exact h later hlater (of_decide_eq_true hkey)

namespace ClassCount

/-- The total is the sum of the counts of the rows. -/
theorem ofRows_total (rows : List Record) :
    ofRows false rows = .total (rows.map rowCount).sum := by
  rw [ofRows, if_neg Bool.false_ne_true]
  exact congrArg total List.sum_eq_foldl.symm

theorem ofRows_bySource (rows : List Record) :
    ofRows true rows =
      .bySource (Dictionary.ofList (rows.map fun row => (sourceKey row, rowCount row))) := rfl

/-- The last row of a source tells its count. -/
theorem under?_ofRows (source : String) (rows : List Record) :
    (ofRows true rows).under? source =
      ((rows.filter fun row => sourceKey row = source).getLast?).map rowCount := by
  rw [ofRows_bySource, under?, Dictionary.find?_ofList_eq_getLast?, List.filter_map,
    List.getLast?_map, Option.map_map]
  rfl

/-- Whether a source is known from the rows behind. -/
theorem isSome_under?_ofRows (source : String) (rows : List Record) :
    ((ofRows true rows).under? source).isSome = rows.any fun row => sourceKey row = source := by
  rw [under?_ofRows, Option.isSome_map, Bool.eq_iff_iff, List.getLast?_isSome,
    List.any_eq_true, Ne, List.filter_eq_nil_iff]
  push Not
  rfl

/-- A row in front is counted unless its source comes again. -/
theorem sum_ofRows_cons (row : Record) (rest : List Record) :
    (ofRows true (row :: rest)).sum =
      (if rest.any fun later => sourceKey later = sourceKey row then 0 else rowCount row) +
        (ofRows true rest).sum := by
  have hsome := isSome_under?_ofRows (sourceKey row) rest
  rw [ofRows_bySource, under?] at hsome
  rw [ofRows_bySource, ofRows_bySource, List.map_cons, Dictionary.ofList_cons, hsome]
  split
  · rw [Nat.zero_add]
  · next hnew =>
    have hkey := mt Dictionary.find?_isSome_iff.2 (hsome ▸ hnew)
    exact ((Dictionary.insert_perm hkey).map _).sum_nat

/-- What a split lacks is what its rows lose to later ones. -/
theorem sum_add_lostCount (rows : List Record) :
    (ofRows true rows).sum + lostCount rows = (ofRows false rows).sum := by
  rw [ofRows_total, sum]
  induction rows with
  | nil => rfl
  | cons row rest ih =>
    rw [sum_ofRows_cons, lostCount, List.map_cons, List.sum_cons, ← ih]
    split <;> omega

/-- Adding up words does not run over as long as the total fits. -/
theorem toNat_foldl_add (words : List UInt64) (start : UInt64)
    (h : start.toNat + (words.map UInt64.toNat).sum < 2 ^ 64) :
    (words.foldl (· + ·) start).toNat = start.toNat + (words.map UInt64.toNat).sum := by
  induction words generalizing start with
  | nil => rfl
  | cons word rest ih =>
    rw [List.map_cons, List.sum_cons] at h ⊢
    have hadd : (start + word).toNat = start.toNat + word.toNat := by
      rw [UInt64.toNat_add]
      omega
    rw [List.foldl_cons, ih (start + word) (by omega), hadd]
    omega

theorem rowCount_le_sum {rows : List Record} {row : Record} (hrow : row ∈ rows) :
    rowCount row ≤ (rows.map rowCount).sum :=
  List.le_sum_of_mem (List.mem_map_of_mem hrow)

/-- Words add up to the total, as long as it fits into one. -/
theorem toNat_wordTotal {rows : List Record} (h : (rows.map rowCount).sum < 2 ^ 64) :
    (wordTotal rows).toNat = (rows.map rowCount).sum := by
  have hwords : (rows.map fun row => UInt64.ofNat (rowCount row)).map UInt64.toNat =
      rows.map rowCount := by
    rw [List.map_map]
    refine List.map_congr_left fun row hrow => ?_
    exact Nat.mod_eq_of_lt (Nat.lt_of_le_of_lt (rowCount_le_sum hrow) h)
  have hzero : (0 : UInt64).toNat = 0 := rfl
  rw [wordTotal, toNat_foldl_add, hwords, hzero, Nat.zero_add]
  rwa [hwords, hzero, Nat.zero_add]

/-- Rows whose counts fit together have counts that fit, as a whole and by source. -/
theorem fits_ofRows {rows : List Record} (h : (rows.map rowCount).sum < 2 ^ 64) (bySource : Bool) :
    (ofRows bySource rows).Fits := by
  cases bySource with
  | false =>
    rw [ofRows_total]
    exact h
  | true =>
    rw [ofRows_bySource]
    intro entry hentry
    obtain ⟨row, hrow, rfl⟩ := List.mem_map.1 (Dictionary.mem_of_mem_ofList hentry)
    exact Nat.lt_of_le_of_lt (rowCount_le_sum hrow) h

/-- A count as a whole and a count by source, of the same rows. -/
structure IsSplit (rows : List Record) (whole split : ClassCount) : Prop where
  whole_eq : whole = .total (rows.map rowCount).sum
  /-- Of the rows with one source the last counts. -/
  under?_eq : ∀ source, split.under? source =
    ((rows.filter fun row => sourceKey row = source).getLast?).map rowCount
  sum_add : split.sum + lostCount rows = whole.sum
  /-- Nothing is lost if only last rows count anything. -/
  sum_eq_iff : split.sum = whole.sum ↔ CountsLast rows
  /-- Where the counts of the rows sum below `2 ^ 64`, words of 64 bits hold both, and adding up in
  words comes to the same total. -/
  fits : (rows.map rowCount).sum < 2 ^ 64 →
    whole.Fits ∧ split.Fits ∧ (wordTotal rows).toNat = whole.sum

/-- The two counts of the same rows are a count as a whole and a count by source. -/
theorem isSplit_ofRows (rows : List Record) :
    IsSplit rows (ofRows false rows) (ofRows true rows) where
  whole_eq := ofRows_total rows
  under?_eq source := under?_ofRows source rows
  sum_add := sum_add_lostCount rows
  sum_eq_iff := by
    rw [← sum_add_lostCount, ← lostCount_eq_zero_iff]
    omega
  fits h := by
    refine ⟨fits_ofRows h false, fits_ofRows h true, ?_⟩
    rw [toNat_wordTotal h, ofRows_total, sum]

end ClassCount

namespace StoreM

/-- However the store answers, counting comes to the counts of the rows that it gave for each class,
and the split of a class agrees with its total exactly when no source comes twice, but for rows that
count nothing. As long as the rows of a class sum below `2 ^ 64`, its counts are numbers of 64
bits. -/
theorem run_selectCounts {schema : Schema} {wanted : Option (List String)}
    {classNames : List String} (h : CountsClasses schema wanted classNames) (history : Bool)
    (answers : List (List Record)) (hlength : answers.length = classNames.length) :
    let rowsOf := Dictionary.ofList (classNames.zip answers)
    (∀ bySource, (Session.run (selectCounts schema ⟨wanted, bySource, history⟩).run
      (answers.map .ok)).result =
        .ok (rowsOf.map (Prod.map id (ClassCount.ofRows bySource)))) ∧
    (∀ className rows, (className, rows) ∈ rowsOf →
      ClassCount.IsSplit rows (.ofRows false rows) (.ofRows true rows)) ∧
    ∀ className rows, (className, rows) ∈ rowsOf → (rows.map rowCount).sum < 2 ^ 64 →
      ∀ bySource, (ClassCount.ofRows bySource rows).Fits := by
  refine ⟨fun bySource => ?_, fun className rows _ => ClassCount.isSplit_ofRows rows,
    fun className rows _ hsum => ClassCount.fits_ofRows hsum⟩
  -- each answer belongs to one statement, and there are as many statements as classes
  let counting : CountOptions := ⟨wanted, bySource, history⟩
  have hcalls : answers.length = (countStatements counting classNames).length := by
    rw [countStatements, List.length_map, hlength]
  have hrun := (asks_selectCounts h).answered answers [] hcalls
  rw [List.append_nil] at hrun
  rw [hrun, List.zip_map_right, Dictionary.ofList_map]

/-- Rows with two links to one source, as an id and with its properties, and two without any. -/
def crowdedRows : List Record := [
  { properties := [("cnt", .int 3)] },
  { properties := [("cnt", .int 2), ("source", .string "#40:1")] },
  { properties := [("cnt", .int 1), ("source", .null)] },
  { properties := [("cnt", .int 5), ("source", .map [("@rid", .string "#40:1")])] }]

/-- Rows whose sources differ. -/
def distinctRows : List Record := [
  { properties := [("cnt", .int 3)] },
  { properties := [("cnt", .int 2), ("source", .string "#40:1")] }]

/-- Two classes, of which the one that comes first in the list comes last in the dictionary. -/
theorem run_selectCounts_people :
    CountsClasses peopleSchema (some ["Person", "Knows"]) ["Person", "Knows"] ∧
    (Session.run (selectCounts peopleSchema ⟨some ["Person", "Knows"], false, false⟩).run
      ([crowdedRows, distinctRows].map .ok)).result =
        .ok [("Knows", .total 5), ("Person", .total 11)] ∧
    (Session.run (selectCounts peopleSchema ⟨some ["Person", "Knows"], true, false⟩).run
      ([crowdedRows, distinctRows].map .ok)).result =
        .ok [("Knows", .bySource [("#40:1", 2), ("null", 3)]),
          ("Person", .bySource [("#40:1", 5), ("null", 1)])] ∧
    ClassCount.IsSplit crowdedRows (.total 11) (.bySource [("#40:1", 5), ("null", 1)]) := by
  have hclasses : CountsClasses peopleSchema (some ["Person", "Knows"]) ["Person", "Knows"] :=
    .listed (.cons ⟨_, rfl, rfl⟩ (.cons ⟨_, rfl, rfl⟩ .nil))
  obtain ⟨hrun, hsplit, -⟩ :=
    run_selectCounts hclasses false [crowdedRows, distinctRows] rfl
  -- the names are listed in the order of the request, and collected in their own
  have hrows : Dictionary.ofList (["Person", "Knows"].zip [crowdedRows, distinctRows]) =
      [("Knows", distinctRows), ("Person", crowdedRows)] := rfl
  rw [hrows] at hrun hsplit
  exact ⟨hclasses, hrun false, hrun true, hsplit "Person" crowdedRows (.tail _ (.head _))⟩

/-- Of three records without a source and one with a null source, a split shows one. -/
theorem not_sum_eq_of_nullSource :
    let rows : List Record := [
      { properties := [("cnt", .int 3)] }, { properties := [("cnt", .int 1), ("source", .null)] }]
    (Session.run (selectCounts peopleSchema ⟨some ["Person"], false, false⟩).run
      [.ok rows]).result = .ok [("Person", .total 4)] ∧
    (Session.run (selectCounts peopleSchema ⟨some ["Person"], true, false⟩).run
      [.ok rows]).result = .ok [("Person", .bySource [("null", 1)])] ∧
    (ClassCount.bySource [("null", 1)]).sum ≠ (ClassCount.total 4).sum :=
  ⟨rfl, rfl, by decide⟩

end StoreM

end RecordQuery
