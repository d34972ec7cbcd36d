import Sidebar.Text.Class

/-!
# Text — white space is no letter

The tables of `White_Space` and `Alphabetic` are disjoint, so a text does not go on with white
space where it goes on with a name.
-/

namespace Sidebar.Text

/-- The numbers that lie in some closed ranges. -/
def members (ranges : List (Nat × Nat)) : List Nat :=
  ranges.flatMap fun r => List.range' r.1 (r.2 + 1 - r.1)

theorem mem_members {ranges : List (Nat × Nat)} {n : Nat} :
    n ∈ members ranges ↔ inRanges ranges n := by
  simp only [members, inRanges, List.mem_flatMap, List.mem_range'_1, List.any_eq_true,
    Bool.and_eq_true, decide_eq_true_eq]
  constructor
  · rintro ⟨r, hr, h₁, h₂⟩; exact ⟨r, hr, h₁, by omega⟩
  · rintro ⟨r, hr, h₁, h₂⟩; exact ⟨r, hr, h₁, by omega⟩

theorem isLetter_eq_false_of_isBlank {c : Char} (h : isBlank c) : isLetter c = false := by
  have all : ∀ n ∈ members blankRanges, isLetter (Char.ofNat n) = false := by decide +kernel
  simpa using all c.toNat (mem_members.mpr h)

end Sidebar.Text
