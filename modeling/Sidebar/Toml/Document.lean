import Sidebar.Text.Position
import Sidebar.Toml.Reader

/-!
# Toml — documents

A document is a sequence of lines.  A line is blank, the header of a table, the header of a row in
an array of tables, or a field of the table that the last header opened.  `read` puts the lines
together into one table.
-/

namespace Sidebar.Toml

open Sidebar.Text

/-- A line that is not blank.  A key is given by the names in front of its last one, and that
one. -/
inductive Line where
  | header (path : List String) (last : String)
  | row (path : List String) (last : String)
  | field (path : List String) (last : String) (v : Value)

/-! ### Reading lines -/

/-- The text after a closing bracket. -/
def closeBracket : List Char → Option (List Char)
  | ']' :: s => some s
  | _        => none

/-- A line, from its first token to its end. -/
def line (size : Nat) : Reader Line
  | '[' :: '[' :: s => do
    let ((path, last), s) ← key size maxNesting s
    let s ← closeBracket s
    let s ← closeBracket s
    let s ← endOfLine s
    some (.row path last, s)
  | '[' :: s => do
    let ((path, last), s) ← key size maxNesting s
    let s ← closeBracket s
    let s ← endOfLine s
    some (.header path last, s)
  | s => do
    let (((path, last), v), s) ← field size (some ∘ skipSpace) (value size maxNesting) s
    let s ← endOfLine s
    some (.field path last v, s)

/-- The lines of a text; at most the first number of them. -/
def lines (size : Nat) : Nat → List Char → Option (List Line)
  | 0, _     => none
  | n + 1, s => do
    match ← skipLines false s with
    | [] => some []
    | s  =>
      let (l, s) ← line size s
      let ls ← lines size n s
      some (l :: ls)

/-! ### Putting lines together -/

/-- The whole table so far, and the path of the table that fields go to. -/
structure State where
  root : Value
  current : List String

/-- The state after one more line. -/
def State.add (st : State) : Line → Option State
  | .header path last => do
    let root ← st.root.update .implied (Value.addHeader last) path
    some ⟨root, path ++ [last]⟩
  | .row path last => do
    let root ← st.root.update .implied (Value.addRow last) path
    some ⟨root, path ++ [last]⟩
  | .field path last v => do
    let add := fun (table : Value) => table.addAt path last v
    let root ← st.root.update .implied add st.current
    some { st with root := root }

/-- The table of a document, or nothing for a malformed one.  A leading byte order mark is
dropped. -/
def read (source : String) : Option Value := do
  let s := dropMark source.toList
  let size := s.length + 1
  let ls ← lines size size s
  let st ← ls.foldlM State.add ⟨.empty .header, []⟩
  some st.root

end Sidebar.Toml
