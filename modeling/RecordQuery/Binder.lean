import RecordQuery.Value

/-!
# Placeholders

Literals never stand in the text of a statement. Each is bound to a placeholder, and the values are
sent beside the text. A binder hands out the names `param0`, `param1`, … in order and keeps what was
bound to them.
-/

namespace RecordQuery

/-- Bound values by placeholder name, in the order of the names as texts. -/
abbrev Params := List (String × Value)

/-- The next placeholder number and what is bound so far. -/
structure Binder where
  next : Nat := 0
  params : Params := []
  deriving Inhabited

namespace Binder

/-- The word that placeholder names start with. -/
def stem : String := "param"

/-- The name of a placeholder. -/
def name (n : Nat) : String := stem ++ toString n

/-- A binder whose first placeholder has the given number. -/
def startingAt (n : Nat) : Binder := { next := n }

/-- Binds a value to the next placeholder and tells its name. -/
def bind (b : Binder) (value : Value) : String × Binder :=
  let name := name b.next
  (name, { next := b.next + 1, params := Dictionary.insert name value b.params })

theorem next_bind (b : Binder) (value : Value) : (b.bind value).2.next = b.next + 1 := rfl

theorem find?_params_bind (b : Binder) (value : Value) (key : String) :
    Dictionary.find? key (b.bind value).2.params =
      if name b.next = key then some value else Dictionary.find? key b.params :=
  Dictionary.find?_insert ..

theorem name_injective {m n : Nat} (h : name m = name n) : m = n := by
  have hlists := congrArg String.toList h
  have hdigits : Nat.toDigits 10 m = Nat.toDigits 10 n := by
    simpa [name, Nat.toString_eq_ofList_toDigits] using hlists
  have hread := congrArg (fun digits => Nat.ofDigitChars 10 digits 0) hdigits
  simpa [Nat.ofDigitChars_toDigits] using hread

end Binder

end RecordQuery
