import Mathlib.Data.List.DropRight
import Sidebar.Text.Position

/-!
# Text — where a text ends

The position behind a text is found by going through its characters.  It is what one counts at the
end: the line breaks of the text, and the characters behind the last of them.
-/

namespace Sidebar.Text

/-- The characters behind the last line break of a text. -/
def lastLine (s : List Char) : List Char := s.rtakeWhile (· ≠ '\n')

theorem lastLine_concat (s : List Char) (c : Char) :
    lastLine (s ++ [c]) = if c = '\n' then [] else lastLine s ++ [c] := by
  rw [lastLine, List.rtakeWhile_concat, lastLine]
  by_cases h : c = '\n' <;> simp [h]

/-- The line of the position behind a text is one more than there are line breaks in it, and the
column one more than there are characters behind the last of these. -/
theorem Position.after_eq (s : List Char) :
    Position.after s = ⟨1 + s.count '\n', 1 + (lastLine s).length⟩ := by
  induction s using List.reverseRecOn with
  | nil => rfl
  | append_singleton s c ih =>
      rw [after_append, List.foldl_cons, List.foldl_nil, ih, List.count_append, lastLine_concat,
        step]
      by_cases h : c = '\n'
      · rw [if_pos h, if_pos h, h]
        rfl
      · have none : [c].count '\n' = 0 := List.count_cons_of_ne h
        rw [if_neg h, if_neg h, none, List.length_append]
        rfl

end Sidebar.Text
