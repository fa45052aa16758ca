import RecordQuery.Text.Blank
import RecordQuery.Text.Split
import RecordQuery.Text.Numeral

/-!
# Record ids

A record is known by the cluster it lives in and its position there, written `#12:3`. Ids of the
store may have negative parts, which mark temporary records of projected rows; a request may only
name persistent records, whose parts are plain numerals.
-/

namespace RecordQuery

/-- The identity of a record in the store. -/
structure RecordId where
  cluster : Int32
  position : Int64
  deriving DecidableEq, Repr, Inhabited

namespace RecordId

/-- Which spellings of an id are read. -/
inductive Form where
  /-- Both parts are numerals. -/
  | persistent
  /-- Both parts are numerals with an optional minus sign. -/
  | stored
  deriving DecidableEq, Repr

/-- The number that a part stands for. -/
def Form.number? : Form → List Char → Option Int
  | .persistent, digits => (Text.natural? digits).map fun n => (n : Int)
  | .stored, digits => Text.integer? digits

/-- The cluster of a number in range. -/
def cluster? (n : Int) : Option Int32 :=
  if Int32.minValue.toInt ≤ n ∧ n ≤ Int32.maxValue.toInt then some (Int32.ofInt n) else none

/-- The position of a number in range. -/
def position? (n : Int) : Option Int64 :=
  if Int64.minValue.toInt ≤ n ∧ n ≤ Int64.maxValue.toInt then some (Int64.ofInt n) else none

/-- Reads `#cluster:position`, where blanks around it are dropped. -/
def parse? (form : Form) (s : String) : Option RecordId :=
  match Text.trimChars s.toList with
  | '#' :: body => do
    let (cluster, position) ← Text.cut ':' body
    let cluster ← form.number? cluster
    let position ← form.number? position
    return ⟨← cluster? cluster, ← position? position⟩
  | _ => none

/-- The written form `#cluster:position`. -/
def text (id : RecordId) : String :=
  "#" ++ toString id.cluster.toInt ++ ":" ++ toString id.position.toInt

instance : ToString RecordId := ⟨text⟩

end RecordId

end RecordQuery
