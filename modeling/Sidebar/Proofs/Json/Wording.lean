import Sidebar.Json.Fault
import Sidebar.Proofs.Text.Split

/-!
# Json — the wording of a fault

What is printed of a fault ends with its place, and what is told of it is the print up to there.
The wording of a cause may itself read like a place, where it has a key in it; the last mark of a
place is still that of the place at the end.

* `told_cause`: what is told is the wording of the cause, whatever characters that has.
* `message_eq_iff`: only a repeated key is worded as one, and the wording shows which.
-/

namespace Sidebar.Json

open Sidebar.Text

/-! ### Marks -/

theorem beforeLast?_append {mark u t : List Char} (h : beforeLast? mark u = some t)
    (s : List Char) : beforeLast? mark (s ++ u) = some (s ++ t) := by
  induction s with
  | nil => exact h
  | cons c s ih => rw [List.cons_append, beforeLast?, ih, List.cons_append]

/-- A mark does not begin where its second character does not follow. -/
theorem beforeLast?_eq_none {a b c : Char} {m s : List Char} (h : b ∉ s) :
    beforeLast? (a :: b :: m) (c :: s) = none := by
  induction s generalizing c with
  | nil => simp [beforeLast?]
  | cons d s ih =>
      rw [List.mem_cons, not_or] at h
      rw [beforeLast?, ih h.2]
      simp [h.1]

/-- In front of a mark that is not followed by its second character. -/
theorem beforeLast?_mark {a b : Char} {m r : List Char} (h : b ∉ m ++ r) (s : List Char) :
    beforeLast? (a :: b :: m) (s ++ (a :: b :: m ++ r)) = some s := by
  have here : beforeLast? (a :: b :: m) (a :: b :: m ++ r) = some [] := by
    rw [List.cons_append, List.cons_append, beforeLast?, beforeLast?_eq_none h]
    simp
  rw [beforeLast?_append here, List.append_nil]

/-! ### Places -/

/-- The print of a fault is the wording of its cause, a mark, and its place. -/
theorem toList_print (f : Located Cause) : (print f).toList =
    f.cause.message.toList ++ (placeMark.toList ++ ((toString f.position.line).toList ++
      (" column ".toList ++ (toString f.position.column).toList))) := by
  have text : print f = f.cause.message ++ placeMark ++ toString f.position.line ++ " column " ++
      toString f.position.column := rfl
  simp only [text, String.toList_append, List.append_assoc]

/-- What is told of a fault is the wording of its cause, and its place. -/
theorem told_eq (f : Located Cause) : told f = ⟨f.cause.message, f.position⟩ := by
  have none : 'a' ∉ "t line ".toList ++ ((toString f.position.line).toList ++
      (" column ".toList ++ (toString f.position.column).toList)) := by
    simp only [List.mem_append, not_or]
    exact ⟨by decide, notMem_repr (by decide) _, by decide, notMem_repr (by decide) _⟩
  have cut : beforeLast? placeMark.toList (print f).toList = some f.cause.message.toList := by
    rw [toList_print]
    exact beforeLast?_mark none f.cause.message.toList
  rw [told, cut]
  simp

/-- The wording of a repeated key is that of no other cause. -/
theorem message_eq_iff {c : Cause} {k : String} :
    c.message = "duplicate key `" ++ k ++ "`" ↔ c = .duplicateKey k := by
  have first : ("duplicate key `" ++ k ++ "`").toList.head? = some 'd' := by
    simp only [String.toList_append]
    rfl
  constructor
  · intro h
    rw [← h] at first
    cases c with
    | duplicateKey key =>
        have same : "duplicate key `" ++ key ++ "`" = "duplicate key `" ++ k ++ "`" := h
        rw [String.append_left_inj, String.append_right_inj] at same
        rw [same]
    | _ => exact absurd first (by decide)
  · rintro rfl
    rfl

end Sidebar.Json
