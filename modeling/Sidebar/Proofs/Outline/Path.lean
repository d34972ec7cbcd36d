import Std.Data.String.ToNat
import Sidebar.Outline.Basic

/-!
# Outline — paths

A path is told by its text: `root` for the empty one, and otherwise its steps, joined by dots.

* `text_inj`: different paths have different texts.
-/

namespace Sidebar.Path

theorem stepText_inj {i j : Nat} : stepText i = stepText j ↔ i = j := by
  refine ⟨fun h => ?_, fun h => h ▸ rfl⟩
  have h' : "children[" ++ i.repr ++ "]" = "children[" ++ j.repr ++ "]" := h
  rw [String.append_left_inj, String.append_right_inj] at h'
  exact Nat.repr_injective h'

theorem toList_stepText (i : Nat) :
    (stepText i).toList = "children[".toList ++ (Nat.toDigits 10 i ++ [']']) := by
  have h : stepText i = "children[" ++ (i.repr ++ "]") := String.append_assoc
  rw [h, String.toList_append, String.toList_append, Nat.toList_repr]
  rfl

theorem dot_notMem_stepText (i : Nat) : '.' ∉ (stepText i).toList := by
  rw [toList_stepText, List.mem_append, List.mem_append]
  rintro (h | h | h)
  · exact absurd h (by decide)
  · exact absurd (Nat.isDigit_of_mem_toDigits (by decide) (by decide) h) (by decide)
  · exact absurd h (by decide)

theorem toList_text_cons (i : Nat) (p : Path) :
    (text (i :: p)).toList = ['.'].intercalate ((i :: p).map fun j => (stepText j).toList) := by
  rw [text, String.toList_intercalate, List.map_map]
  rfl

/-- The steps of a path are the parts of its text between the dots. -/
theorem splitOn_text_cons (i : Nat) (p : Path) :
    (text (i :: p)).toList.splitOn '.' = (i :: p).map fun j => (stepText j).toList := by
  rw [toList_text_cons]
  refine List.splitOn_intercalate '.' (fun l hl => ?_) (by simp)
  obtain ⟨j, -, rfl⟩ := List.mem_map.mp hl
  exact dot_notMem_stepText j

theorem text_cons_ne_root (i : Nat) (p : Path) : text (i :: p) ≠ "root" := by
  intro h
  have e := splitOn_text_cons i p
  rw [h, List.map_cons, toList_stepText] at e
  have e' : "root".toList = "children[".toList ++ (Nat.toDigits 10 i ++ [']']) :=
    (List.cons.inj e).1
  exact absurd (congrArg List.head? e') (by simp)

/-- **Different paths have different texts.** -/
theorem text_inj {p q : Path} : p.text = q.text ↔ p = q := by
  refine ⟨fun h => ?_, fun h => h ▸ rfl⟩
  match p, q with
  | [], [] => rfl
  | [], j :: q => exact absurd h.symm (text_cons_ne_root j q)
  | i :: p, [] => exact absurd h (text_cons_ne_root i p)
  | i :: p, j :: q =>
      have steps := splitOn_text_cons i p
      rw [h, splitOn_text_cons] at steps
      have inj : ∀ a b, (stepText a).toList = (stepText b).toList → a = b :=
        fun a b e => stepText_inj.mp (String.toList_inj.mp e)
      exact ((List.map_inj_right inj).mp steps).symm

end Sidebar.Path
