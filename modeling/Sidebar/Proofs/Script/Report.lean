import Sidebar.Proofs.Script.Fault
import Sidebar.Proofs.Text.Position

/-!
# Script — what is told of a fault

A script that cannot be read is told of with a wording and a position.  The position is a real one,
that of a place in the text where the cause is to be seen.  The wording of a comment that does not
end, and that of a key that has come before, leave no doubt about the cause.

* `message_eq_unterminated_iff`, `message_eq_duplicate_iff`: two wordings are those of one cause
  only.
* `read_error_located`: the position that is told, and what is found there.
-/

namespace Sidebar.Script

open Sidebar.Text

/-! ### Wordings -/

/-- How the wording of a cause begins. -/
def Cause.opening : Cause → List Char
  | .variableNameMissing  => ['e', 'x', 'p']
  | .missing _            => ['e', 'x', 'p']
  | .keyMissing _         => ['e', 'x', 'p']
  | .fieldUnended         => ['e', 'x', 'p']
  | .itemUnended          => ['e', 'x', 'p']
  | .trailing _           => ['u', 'n', 'e']
  | .unexpected _         => ['u', 'n', 'e']
  | .endOfInput           => ['u', 'n', 'e']
  | .duplicateKey _       => ['d', 'u', 'p']
  | .unterminatedString   => ['u', 'n', 't']
  | .unterminatedComment  => ['u', 'n', 't']
  | .invalidEscape _      => ['i', 'n', 'v']
  | .invalidUnicodeEscape => ['i', 'n', 'v']
  | .unpairedSurrogate    => ['u', 'n', 'p']
  | .tooDeep              => ['n', 'e', 's']

theorem take_append_append {p : String} (h : 3 ≤ p.toList.length) (s q : String) :
    (p ++ s ++ q).toList.take 3 = p.toList.take 3 := by
  rw [String.append_assoc, String.toList_append, List.take_append_of_le_length h]

theorem take_message (c : Cause) : c.message.toList.take 3 = c.opening := by
  cases c with
  | missing c => exact take_append_append (p := "expected `") (by decide) _ _
  | keyMissing c => exact take_append_append (p := "expected key, found `") (by decide) _ _
  | trailing c => exact take_append_append (p := "unexpected trailing content `") (by decide) _ _
  | unexpected c => exact take_append_append (p := "unexpected character `") (by decide) _ _
  | duplicateKey k => exact take_append_append (p := "duplicate key `") (by decide) _ _
  | invalidEscape c => exact take_append_append (p := "invalid escape `\\") (by decide) _ _
  | tooDeep => exact take_append_append (p := "nesting deeper than ") (by decide) _ _
  | _ => rfl

/-- The wording of an unterminated comment is that of no other cause. -/
theorem message_eq_unterminated_iff {c : Cause} :
    c.message = "unterminated comment" ↔ c = .unterminatedComment := by
  constructor
  · intro h
    have first : c.opening = ['u', 'n', 't'] := by
      rw [← take_message, h]
      rfl
    cases c with
    | unterminatedComment => rfl
    | unterminatedString => exact absurd h (by decide)
    | _ => simp [Cause.opening] at first
  · rintro rfl
    rfl

/-- The wording of a repeated key is that of no other cause, and shows which key it is. -/
theorem message_eq_duplicate_iff {c : Cause} {k : String} :
    c.message = "duplicate key `" ++ k ++ "`" ↔ c = .duplicateKey k := by
  constructor
  · intro h
    have first : c.opening = ['d', 'u', 'p'] := by
      rw [← take_message, h, take_append_append (by decide)]
      rfl
    cases c with
    | duplicateKey key =>
        have same : "duplicate key `" ++ key ++ "`" = "duplicate key `" ++ k ++ "`" := h
        rw [String.append_left_inj, String.append_right_inj] at same
        rw [same]
    | _ => simp [Cause.opening] at first
  · rintro rfl
    rfl

/-! ### Positions -/

/-- The position of a fault is that of a place in the text, a leading byte order mark aside: its
line is one more than there are line breaks in front of the place, and its column one more than
there are characters between the last of these and the place.  The cause is to be seen there.  So an
unterminated comment is told of where it begins, and a repeated key where it stands, in a record
that has the key already. -/
theorem read_error_located {source : String} {e : Located Cause} (h : read source = .error e) :
    ∃ p r, dropMark source.toList = p ++ r ∧
      e.position.line = 1 + p.count '\n' ∧ e.position.column = 1 + (lastLine p).length ∧
      e.cause.Explains (dropMark source.toList) r ∧
      (e.cause.message = "unterminated comment" →
        ∃ w, r = '/' :: '*' :: w ∧ ¬ ['*', '/'] <:+: w) ∧
      ∀ k, e.cause.message = "duplicate key `" ++ k ++ "`" →
        (∃ t, Key r k t) ∧ ∃ seen s, Reaches (dropMark source.toList) (.field seen) s ∧
          Gap s r ∧ k ∈ seen := by
  obtain ⟨p, r, text, position, explains⟩ := read_stops_in h
  rw [Position.after_eq] at position
  refine ⟨p, r, text, congrArg Position.line position, congrArg Position.column position,
    explains, ?_, ?_⟩
  · intro wording
    rw [message_eq_unterminated_iff.mp wording] at explains
    exact explains
  · intro k wording
    rw [message_eq_duplicate_iff.mp wording] at explains
    obtain ⟨seen, s, place, gap, old, key⟩ := explains
    exact ⟨key, seen, s, place, gap, old⟩

/-- A key that comes before on the line above, and a comment at the end of a line. -/
theorem read_error_located_repeated :
    read "\x7ba: 'x',\n  'a': 'y'\x7d" = .error ⟨.duplicateKey "a", ⟨2, 3⟩⟩ ∧
      (∃ p r, "\x7ba: 'x',\n  'a': 'y'\x7d".toList = p ++ r ∧ p.count '\n' = 1 ∧
        (lastLine p).length = 2 ∧ ∃ t, Key r "a" t) ∧
      read "[] /* x" = .error ⟨.unterminatedComment, ⟨1, 4⟩⟩ ∧
      ∃ p r, "[] /* x".toList = p ++ r ∧ p.count '\n' = 0 ∧ (lastLine p).length = 3 ∧
        ∃ w, r = '/' :: '*' :: w ∧ ¬ ['*', '/'] <:+: w := by
  have repeated : read "\x7ba: 'x',\n  'a': 'y'\x7d" = .error ⟨.duplicateKey "a", ⟨2, 3⟩⟩ := rfl
  have unclosed : read "[] /* x" = .error ⟨.unterminatedComment, ⟨1, 4⟩⟩ := rfl
  obtain ⟨p, r, text, line, column, -, -, key⟩ := read_error_located repeated
  obtain ⟨q, u, text', line', column', -, comment, -⟩ := read_error_located unclosed
  refine ⟨repeated, ⟨p, r, text, ?_, ?_, (key "a" rfl).1⟩, unclosed, q, u, text', ?_, ?_, ?_⟩
  · exact Nat.add_left_cancel (k := 1) line.symm
  · exact Nat.add_left_cancel (k := 2) column.symm
  · exact Nat.add_left_cancel (k := 0) line'.symm
  · exact Nat.add_left_cancel (k := 3) column'.symm
  · exact comment rfl

end Sidebar.Script
