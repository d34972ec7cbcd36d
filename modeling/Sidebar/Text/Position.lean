/-!
# Text — positions

A position is a line and a column.  Two measures of the column are in use.  `Position.after`
counts characters from one, as an editor does.  `Position.atByte` counts the bytes of UTF-8 since
the last line break, so the first byte of a line ends at column one and an offset may lie inside
a character.  Lines are counted from one in both.

* `Position.after_append`: reading on continues from the position reached.
* `bytes_append`: the byte length of a text is the sum over its parts.
-/

namespace Sidebar.Text

/-- A line and a column. -/
structure Position where
  line : Nat
  column : Nat
deriving DecidableEq, Repr

/-- The mark that some writers put in front of a text in UTF-8. -/
def byteOrderMark : Char := '\ufeff'

/-- The text without one leading byte order mark. -/
def dropMark : List Char → List Char
  | c :: s => if c = byteOrderMark then s else c :: s
  | [] => []

/-- The number of bytes of the text in UTF-8. -/
def bytes : List Char → Nat
  | [] => 0
  | c :: s => c.utf8Size + bytes s

@[simp] theorem bytes_append (s t : List Char) : bytes (s ++ t) = bytes s + bytes t := by
  induction s with
  | nil => simp [bytes]
  | cons c s ih => simp [bytes, ih, Nat.add_assoc]

namespace Position

/-! ### Columns in characters -/

/-- The position of the first character. -/
def start : Position := ⟨1, 1⟩

/-- The position after one more character. -/
def step (p : Position) (c : Char) : Position :=
  if c = '\n' then ⟨p.line + 1, 1⟩ else ⟨p.line, p.column + 1⟩

/-- The position after the text. -/
def after (s : List Char) : Position :=
  s.foldl step start

theorem after_append (s t : List Char) : after (s ++ t) = t.foldl step (after s) := by
  simp [after]

/-! ### Columns in bytes -/

/-- The position of a byte offset, counted on from `p`. -/
def atByteFrom (p : Position) : List Char → Nat → Position
  | [], _ => p
  | c :: s, n =>
    if n < c.utf8Size then ⟨p.line, p.column + n⟩
    else if c = '\n' then atByteFrom ⟨p.line + 1, 0⟩ s (n - c.utf8Size)
    else atByteFrom ⟨p.line, p.column + c.utf8Size⟩ s (n - c.utf8Size)

/-- The position of a byte offset in the text; the column counts the bytes since the last line
break. -/
def atByte (s : List Char) (n : Nat) : Position :=
  atByteFrom ⟨1, 0⟩ s n

end Position

/-- What went wrong, and where in the text. -/
structure Located (κ : Type) where
  cause : κ
  position : Position
deriving DecidableEq, Repr

/-- The wording of a fault with its place. -/
def Located.describe {κ : Type} (wording : κ → String) (f : Located κ) : String :=
  s!"{wording f.cause} at line {f.position.line}, column {f.position.column}"

end Sidebar.Text
