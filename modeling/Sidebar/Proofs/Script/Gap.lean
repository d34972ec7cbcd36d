import Sidebar.Proofs.Text.Step
import Sidebar.Proofs.Script.Grammar

/-!
# Script — gaps are read as the grammar says

The reader of gaps takes the longest one, so what it leaves begins none (`Settled`).  Every token
begins at such a place, and a gap of the grammar that ends there is the one that is read.

* `gap_eq_ok`: what is read is a gap of the grammar, and the other way round.
-/

namespace Sidebar.Script

open Sidebar.Text

/-- No gap begins here: the text ends, or goes on with what is neither white space nor a
comment. -/
def Settled : List Char → Prop
  | '/' :: '/' :: _ => False
  | '/' :: '*' :: _ => False
  | c :: _          => ¬ isBlank c
  | []              => True

theorem Gap.length_le {s r : List Char} (h : Gap s r) : r.length ≤ s.length := by
  induction h with
  | none => exact Nat.le_refl _
  | blank _ _ ih => simp; omega
  | line _ _ _ ih => simp; omega
  | block _ _ ih => simp; omega

theorem settled_of_not_isBlank {c : Char} {s : List Char} (hc : c ≠ '/') (h : ¬ isBlank c) :
    Settled (c :: s) := by
  unfold Settled
  split
  · rename_i e; exact absurd (List.cons.inj e).1 hc
  · rename_i e; exact absurd (List.cons.inj e).1 hc
  · rename_i e; rwa [← (List.cons.inj e).1]
  · trivial

/-- The characters a token may begin with, names apart. -/
theorem settled_mark {c : Char} {s : List Char} (h : c ∈ [':', ',', ';', '=', '[', ']', '{', '}']) :
    Settled (c :: s) := by
  refine settled_of_not_isBlank ?_ (not_of_all (by decide) h)
  rintro rfl
  exact absurd h (by decide)

/-- A line comment reads on to the end of its line. -/
theorem skipGap_line {w s : List Char} (hw : '\n' ∉ w) (e : LineEnd s) :
    skipGap .line (w ++ s) = skipGap .blank s := by
  induction w with
  | nil =>
      cases s with
      | nil => simp [skipGap]
      | cons c s =>
          obtain rfl : c = '\n' := e c (by simp)
          have : isBlank '\n' := by decide
          simp [skipGap, this]
  | cons c w ih =>
      obtain ⟨hc, hw⟩ := not_or.mp (mt List.mem_cons.mpr hw)
      rw [List.cons_append, skipGap, if_neg (Ne.symm hc), ih hw]

/-- A block comment reads on to the first `*/`. -/
theorem skipGap_block {start w s : List Char} (hw : ¬ ['*', '/'] <:+: w ++ ['*']) :
    skipGap (.block start) (w ++ '*' :: '/' :: s) = skipGap .blank s := by
  induction w with
  | nil => simp [skipGap]
  | cons c w ih =>
      have hw' : ¬ ['*', '/'] <:+: w ++ ['*'] :=
        fun h => hw (h.trans (List.suffix_cons _ _).isInfix)
      rw [List.cons_append, skipGap, ih hw']
      rintro t rfl h
      -- the two characters would close the comment before its end
      cases w with
      | nil => simp at h
      | cons d w =>
          obtain ⟨rfl, -⟩ := List.cons.inj h
          exact hw ⟨[], w ++ ['*'], by simp⟩

theorem skipGap_blank {c : Char} {s : List Char} (h : isBlank c) :
    skipGap .blank (c :: s) = skipGap .blank s := by
  have hc : c ≠ '/' := by rintro rfl; exact absurd h (by decide)
  simp [skipGap, hc, h]

theorem skipGap_settled {r : List Char} (h : Settled r) : skipGap .blank r = .ok r := by
  unfold Settled at h
  split at h
  · exact h.elim
  · exact h.elim
  · rename_i c s h₁ h₂
    rw [skipGap, if_neg h]
    · rintro t rfl rfl; exact h₁ t rfl rfl
    · rintro t rfl rfl; exact h₂ t rfl rfl
  · rw [skipGap]

theorem gap_complete {s r : List Char} (h : Gap s r) (hr : Settled r) : gap s = .ok r := by
  unfold gap
  induction h with
  | none => exact skipGap_settled hr
  | blank hc _ ih => rw [skipGap_blank hc, ih hr]
  | line hw e _ ih => rw [skipGap, skipGap_line hw e, ih hr]
  | block hw _ ih => rw [skipGap, skipGap_block hw, ih hr]

/-- What is left of a gap, seen from the middle of it. -/
def GapWithin : GapMode → List Char → List Char → Prop
  | .blank, s, r   => Gap s r
  | .line, s, r    => ∃ w t, s = w ++ t ∧ '\n' ∉ w ∧ LineEnd t ∧ Gap t r
  | .block _, s, r => ∃ w t, s = w ++ '*' :: '/' :: t ∧ ¬ ['*', '/'] <:+: w ++ ['*'] ∧ Gap t r

theorem skipGap_sound {m : GapMode} {s r : List Char} (h : skipGap m s = .ok r) :
    GapWithin m s r ∧ Settled r := by
  fun_induction skipGap m s with
  | case1 s ih =>
      obtain ⟨⟨w, t, rfl, hw, e, g⟩, hr⟩ := ih h
      exact ⟨.line hw e g, hr⟩
  | case2 s ih =>
      obtain ⟨⟨w, t, rfl, hw, g⟩, hr⟩ := ih h
      exact ⟨.block hw g, hr⟩
  | case3 c s _ _ hc ih =>
      obtain ⟨g, hr⟩ := ih h
      exact ⟨.blank hc g, hr⟩
  | case4 c s h₁ h₂ hc =>
      obtain rfl := Except.ok.inj h
      refine ⟨.none, ?_⟩
      unfold Settled
      split
      · rename_i e; exact h₁ _ (List.cons.inj e).1 (List.cons.inj e).2
      · rename_i e; exact h₂ _ (List.cons.inj e).1 (List.cons.inj e).2
      · rename_i e; rwa [← (List.cons.inj e).1]
      · trivial
  | case5 =>
      obtain rfl := Except.ok.inj h
      exact ⟨.none, trivial⟩
  | case6 s ih =>
      obtain ⟨g, hr⟩ := ih h
      exact ⟨⟨[], _, rfl, by simp, by simp [LineEnd], .blank (by decide) g⟩, hr⟩
  | case7 c s hc ih =>
      obtain ⟨⟨w, t, rfl, hw, e, g⟩, hr⟩ := ih h
      refine ⟨⟨c :: w, t, rfl, ?_, e, g⟩, hr⟩
      rw [List.mem_cons, not_or]
      exact ⟨Ne.symm hc, hw⟩
  | case8 =>
      obtain rfl := Except.ok.inj h
      exact ⟨⟨[], [], rfl, by simp, by simp [LineEnd], .none⟩, trivial⟩
  | case9 start s ih =>
      -- nothing of the comment is left but the two characters that close it
      obtain ⟨g, hr⟩ := ih h
      exact ⟨⟨[], s, rfl, by decide, g⟩, hr⟩
  | case10 start c s hc ih =>
      obtain ⟨⟨w, t, rfl, hw, g⟩, hr⟩ := ih h
      refine ⟨⟨c :: w, t, rfl, ?_, g⟩, hr⟩
      rw [List.cons_append, List.infix_cons_iff, not_or]
      refine ⟨fun hp => ?_, hw⟩
      -- a `*/` at the front would have been the end
      obtain ⟨rfl, hp'⟩ := List.cons_prefix_cons.mp hp
      cases w with
      | nil => simp at hp'
      | cons d w =>
          obtain ⟨rfl, -⟩ := List.cons_prefix_cons.mp hp'
          exact hc _ rfl rfl
  | case11 => exact nomatch h

/-- A gap is read exactly where the grammar has one that is left settled. -/
theorem gap_eq_ok {s r : List Char} : gap s = .ok r ↔ Gap s r ∧ Settled r :=
  ⟨skipGap_sound, fun h => gap_complete h.1 h.2⟩

end Sidebar.Script
