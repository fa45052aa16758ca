import RecordQuery.Limits.Toml.Scalar

/-!
# TOML documents

`Toml.parse?` reads a document: lines with a header or an entry, blanks and comments. Arrays may run
over several lines and inline tables may not. Arrays and inline tables are open inside one another
up to `depthLimit` at a time.
-/

namespace RecordQuery.Toml

mutual

/-- A value, and the text behind it. `room` is the number of arrays and inline tables that may still
be opened, and `fuel` bounds the number of steps. -/
def value? (room fuel : Nat) (cs : List Char) : Option (Toml × List Char) :=
  match fuel with
  | 0 => none
  | fuel + 1 =>
    match cs with
    | '"' :: _ => (string? cs).map fun (text, rest) => (.string text, rest)
    | '\'' :: _ => (string? cs).map fun (text, rest) => (.string text, rest)
    | '[' :: rest => if room = 0 then none else items? (room - 1) fuel [] rest
    | '\x7b' :: rest =>
      if room = 0 then none
      else
        match skipSpaces rest with
        | '\x7d' :: rest => some (.table .closed [], rest)
        | rest => inlineEntries? (room - 1) fuel [] rest
    | cs => scalar? cs

/-- The items of an array up to its end. -/
def items? (room fuel : Nat) (done : List Toml) (cs : List Char) : Option (Toml × List Char) :=
  match fuel with
  | 0 => none
  | fuel + 1 =>
    match skipLines cs.length cs with
    | ']' :: rest => some (.array done.reverse, rest)
    | cs => do
      let (item, rest) ← value? room fuel cs
      match skipLines rest.length rest with
      | ',' :: rest => items? room fuel (item :: done) rest
      | ']' :: rest => return (.array (item :: done).reverse, rest)
      | _ => none

/-- The entries of an inline table up to its end. -/
def inlineEntries? (room fuel : Nat) (done : Entries) (cs : List Char) :
    Option (Toml × List Char) :=
  match fuel with
  | 0 => none
  | fuel + 1 => do
    let (key, rest) ← key? cs
    match rest with
    | '=' :: rest =>
      let (value, rest) ← value? room fuel (skipSpaces rest)
      let done ← assignDotted value key done
      match skipSpaces rest with
      | ',' :: rest => inlineEntries? room fuel done rest
      | '\x7d' :: rest => return (.table .closed done, rest)
      | _ => none
    | _ => none

end

/-- A document while it is read: all tables, and the path of the latest header. -/
structure Draft where
  root : Entries := []
  header : List String := []

namespace Draft

/-- The header or the entry at the start of a line, and the text behind it. -/
def line? (draft : Draft) (cs : List Char) : Option (Draft × List Char) :=
  match cs with
  | '[' :: '[' :: rest => do
    let (key, rest) ← key? rest
    match rest with
    | ']' :: ']' :: rest =>
      let root ← atHeader (appendTable (key.getLastD "")) key.dropLast draft.root
      return (⟨root, key⟩, rest)
    | _ => none
  | '[' :: rest => do
    let (key, rest) ← key? rest
    match rest with
    | ']' :: rest =>
      let root ← atHeader (defineTable (key.getLastD "")) key.dropLast draft.root
      return (⟨root, key⟩, rest)
    | _ => none
  | cs => do
    let (key, rest) ← key? cs
    match rest with
    | '=' :: rest =>
      let (value, rest) ← value? depthLimit (rest.length + 1) (skipSpaces rest)
      let root ← atHeader (assignDotted value key) draft.header draft.root
      return ({ draft with root := root }, rest)
    | _ => none

/-- The lines of a document; `fuel` bounds their number. -/
def lines? (fuel : Nat) (draft : Draft) (cs : List Char) : Option Entries :=
  match fuel with
  | 0 => none
  | fuel + 1 =>
    match skipLines cs.length cs with
    | [] => some draft.root
    | cs => do
      let (draft, rest) ← draft.line? cs
      match skipComment (skipSpaces rest) with
      | [] => return draft.root
      | rest => lines? fuel draft (← lineEnd? rest)

end Draft

/-- Reads a document. -/
def parse? (s : String) : Option Entries :=
  let cs := match s.toList with
    | '\uFEFF' :: rest => rest
    | cs => cs
  Draft.lines? (cs.length + 1) {} cs

end RecordQuery.Toml
