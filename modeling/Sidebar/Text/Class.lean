import Sidebar.Text.Alphabetic
import Sidebar.Text.Numeric

/-!
# Text — classes of characters

`isBlank` is the property `White_Space`, `isLetter` the property `Alphabetic`, and
`isLetterOrNumber` adds the three categories of numbers.  ASCII is decided by core's own
predicates; the tables hold the rest.
-/

namespace Sidebar.Text

/-- `n` lies in one of the closed ranges. -/
def inRanges (ranges : List (Nat × Nat)) (n : Nat) : Bool :=
  ranges.any fun r => decide (r.1 ≤ n) && decide (n ≤ r.2)

/-- The ranges of the property `White_Space`. -/
def blankRanges : List (Nat × Nat) := [
  (0x0009, 0x000D), (0x0020, 0x0020), (0x0085, 0x0085), (0x00A0, 0x00A0), (0x1680, 0x1680),
  (0x2000, 0x200A), (0x2028, 0x2029), (0x202F, 0x202F), (0x205F, 0x205F), (0x3000, 0x3000)]

/-- White space, ASCII or not. -/
def isBlank (c : Char) : Bool :=
  inRanges blankRanges c.toNat

/-- A letter, ASCII or not. -/
def isLetter (c : Char) : Bool :=
  c.isAlpha || (decide (0x80 ≤ c.toNat) && inRanges alphabeticRanges c.toNat)

/-- A letter or a number, ASCII or not. -/
def isLetterOrNumber (c : Char) : Bool :=
  isLetter c || c.isDigit || (decide (0x80 ≤ c.toNat) && inRanges numericRanges c.toNat)

theorem isBlank_of_isWhitespace {c : Char} (h : c.isWhitespace) : isBlank c := by
  simp only [Char.isWhitespace, Bool.or_eq_true, decide_eq_true_eq] at h
  rcases h with ((rfl | rfl) | rfl) | rfl <;> decide

theorem isLetterOrNumber_of_isLetter {c : Char} (h : isLetter c) : isLetterOrNumber c := by
  simp [isLetterOrNumber, h]

theorem isLetterOrNumber_of_isDigit {c : Char} (h : c.isDigit) : isLetterOrNumber c := by
  simp [isLetterOrNumber, h]

end Sidebar.Text
