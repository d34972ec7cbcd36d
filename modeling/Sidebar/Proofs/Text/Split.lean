/-!
# Text — a text cut at a character

Cutting a text at a character gives one part more than the character occurs, and no part has it.

* `length_splitOn`: the number of parts.
* `notMem_of_mem_splitOn`: what the parts do not have.
* `notMem_repr`: a number in decimal has digits only, so it is not cut.
-/

namespace Sidebar.Text

variable {c : Char}

theorem length_splitOn (c : Char) (s : List Char) : (s.splitOn c).length = s.count c + 1 := by
  induction s with
  | nil => rw [List.splitOn_nil, List.count_nil, List.length_singleton]
  | cons d s ih =>
      rw [List.splitOn_cons_eq_if_modifyHead]
      by_cases h : d = c
      · rw [if_pos (beq_iff_eq.mpr h), List.length_cons, ih, h, List.count_cons_self]
      · rw [if_neg (mt beq_iff_eq.mp h), List.length_modifyHead, ih, List.count_cons_of_ne h]

theorem notMem_of_mem_splitOn {s p : List Char} (h : p ∈ s.splitOn c) : c ∉ p := by
  induction s generalizing p with
  | nil =>
      obtain rfl := List.mem_singleton.mp (List.splitOn_nil c ▸ h)
      exact List.not_mem_nil
  | cons d s ih =>
      rw [List.splitOn_cons_eq_if_modifyHead] at h
      by_cases hd : d = c
      · rw [if_pos (beq_iff_eq.mpr hd)] at h
        rcases List.mem_cons.mp h with rfl | h
        · exact List.not_mem_nil
        · exact ih h
      · rw [if_neg (mt beq_iff_eq.mp hd)] at h
        -- the character goes in front of the first part
        cases e : s.splitOn c with
        | nil => exact absurd e (List.splitOn_ne_nil c s)
        | cons q qs =>
            rw [e, List.modifyHead_cons] at h
            rw [e] at ih
            rcases List.mem_cons.mp h with rfl | h
            · exact List.not_mem_cons_of_ne_of_not_mem (Ne.symm hd) (ih List.mem_cons_self)
            · exact ih (List.mem_cons_of_mem q h)

theorem notMem_repr {c : Char} (hc : c.isDigit = false) (n : Nat) : c ∉ (toString n).toList := by
  intro h
  rw [show toString n = n.repr from rfl, Nat.toList_repr] at h
  exact Bool.false_ne_true (hc.symm.trans (Nat.isDigit_of_mem_toDigits (by decide) (by decide) h))

end Sidebar.Text
