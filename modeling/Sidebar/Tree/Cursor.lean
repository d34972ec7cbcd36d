import Sidebar.Tree.Basic

/-!
# Tree — cursors

A cursor stands in a range of nodes and moves towards its end.  The nodes still to come are
`Cursor.rest`; stepping takes the first of them, and a cursor at its end stays there.

* `Cursor.length_rest`: `remaining` counts the nodes to come.
* `Cursor.rest_skip`: skipping drops nodes from the front.
-/

namespace Sidebar

/-- The nodes from `next` up to, but not with, `stop`. -/
structure Cursor where
  next : Nat
  stop : Nat
deriving DecidableEq, Repr

namespace Cursor

/-- How many nodes are to come. -/
def remaining (c : Cursor) : Nat := c.stop - c.next

/-- The nodes to come. -/
def rest (c : Cursor) : List Nat := List.range' c.next c.remaining

/-- The next node, and the cursor behind it. -/
def step (c : Cursor) : Option Nat × Cursor :=
  if c.next < c.stop then (some c.next, { c with next := c.next + 1 }) else (none, c)

/-- The cursor `k` nodes further on, or at its end. -/
def skip (k : Nat) (c : Cursor) : Cursor :=
  { c with next := c.next + min k c.remaining }

/-- The node after the next `k`, and the cursor behind it. -/
def nth (k : Nat) (c : Cursor) : Option Nat × Cursor := (c.skip k).step

/-- The cursor at its end. -/
def finish (c : Cursor) : Cursor := c.skip c.remaining

@[simp] theorem length_rest (c : Cursor) : c.rest.length = c.remaining := by
  simp [rest]

/-- The nodes of a range that is given by its length. -/
theorem rest_add (n k : Nat) : (Cursor.mk n (n + k)).rest = List.range' n k := by
  rw [rest, remaining, Nat.add_sub_cancel_left]

theorem rest_skip (k : Nat) (c : Cursor) : (c.skip k).rest = c.rest.drop k := by
  simp only [rest, skip, remaining, List.drop_range']
  rcases Nat.le_total k (c.stop - c.next) with h | h
  · rw [Nat.min_eq_left h, Nat.mul_one, Nat.sub_add_eq]
  · rw [Nat.min_eq_right h, Nat.sub_eq_zero_of_le h]
    simp only [List.range'_zero, List.range'_eq_nil_iff]
    omega

theorem step_eq (c : Cursor) : c.step.1 = c.rest.head? := by
  unfold step rest remaining
  split
  · obtain ⟨k, h⟩ : ∃ k, c.stop - c.next = k + 1 := ⟨c.stop - c.next - 1, by omega⟩
    simp [h, List.range'_succ]
  · simp [show c.stop - c.next = 0 by omega]

theorem rest_step (c : Cursor) : c.step.2.rest = c.rest.tail := by
  unfold step rest remaining
  split
  · obtain ⟨k, h⟩ : ∃ k, c.stop - c.next = k + 1 := ⟨c.stop - c.next - 1, by omega⟩
    simp only [h, List.range'_succ, List.tail_cons]
    congr 1; omega
  · simp [show c.stop - c.next = 0 by omega]

end Cursor

namespace Tree

/-- All nodes. -/
def traverse (t : Tree) : Cursor := ⟨0, t.size⟩

/-- The nodes at or below a node. -/
def subtree? (t : Tree) (n : Nat) : Option Cursor :=
  (t.cell? n).map fun c => ⟨n, c.stop⟩

end Tree

end Sidebar
