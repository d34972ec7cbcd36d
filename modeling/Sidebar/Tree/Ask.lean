import Sidebar.Tree.Cursor

/-!
# Tree — asking a cursor

A cursor knows how to step and how many nodes are to come.  All else that one asks of it is made of
steps: to pass over some nodes, or to list those that are left.  A copy of a cursor can be put aside,
and the two can change places.

* `Cursor.pass_eq`: passing over nodes is a skip and a step.
* `Cursor.drain_eq`: listing what is left, and the cursor at its end.
* `Tree.answer`, `Tree.answers`: one question, and questions one after the other.
-/

namespace Sidebar

namespace Cursor

variable {c d : Cursor} {n : Nat}

/-! ### Steps -/

theorem step_eq_none (h : c.step = (none, d)) : c.stop ≤ c.next ∧ d = c := by
  unfold step at h
  split at h
  · exact nomatch (Prod.mk.inj h).1
  · next le => exact ⟨Nat.not_lt.mp le, (Prod.mk.inj h).2.symm⟩

theorem step_eq_some (h : c.step = (some n, d)) :
    c.next < c.stop ∧ n = c.next ∧ d = { c with next := c.next + 1 } := by
  unfold step at h
  split at h
  · next lt =>
      obtain ⟨node, cursor⟩ := Prod.mk.inj h
      exact ⟨lt, (Option.some.inj node).symm, cursor.symm⟩
  · exact nomatch (Prod.mk.inj h).1

/-- With a step to a node there is one less to come. -/
theorem remaining_of_step (h : c.step = (some n, d)) : c.remaining = d.remaining + 1 := by
  obtain ⟨lt, -, rfl⟩ := step_eq_some h
  simp only [remaining]
  omega

theorem skip_of_step_none (k : Nat) (h : c.step = (none, d)) : c.skip k = c := by
  obtain ⟨le, -⟩ := step_eq_none h
  rw [skip, remaining, Nat.sub_eq_zero_of_le le, Nat.min_zero, Nat.add_zero]

theorem skip_succ_of_step (k : Nat) (h : c.step = (some n, d)) : c.skip (k + 1) = d.skip k := by
  have less := remaining_of_step h
  obtain ⟨-, -, rfl⟩ := step_eq_some h
  simp only [skip, mk.injEq, and_true]
  omega

/-! ### Many steps -/

/-- The least and the greatest number of nodes that are to come. -/
def bounds (c : Cursor) : Nat × Option Nat := (c.remaining, some c.remaining)

/-- Steps over `k` nodes and to the one after them, unless the end comes first. -/
def pass : Nat → Cursor → Option Nat × Cursor
  | 0, c     => c.step
  | k + 1, c =>
    match c.step with
    | (none, d)   => (none, d)
    | (some _, d) => d.pass k

/-- Steps to the end, and keeps the nodes. -/
def drain (c : Cursor) : List Nat × Cursor :=
  match _h : c.step with
  | (none, d)   => ([], d)
  | (some n, d) => (n :: d.drain.1, d.drain.2)
termination_by c.remaining
decreasing_by all_goals exact Nat.lt_of_succ_le (Nat.le_of_eq (remaining_of_step _h).symm)

theorem pass_eq (k : Nat) (c : Cursor) : c.pass k = c.nth k := by
  fun_induction pass k c with
  | case1 c => rw [nth, skip, Nat.zero_min, Nat.add_zero]
  | case2 k c d h => rw [nth, skip_of_step_none _ h, h, (step_eq_none h).2]
  | case3 k c n d h ih => rw [ih, nth, nth, skip_succ_of_step k h]

theorem drain_eq (c : Cursor) : c.drain = (c.rest, c.finish) := by
  fun_induction drain c with
  | case1 c d h =>
      have none : c.rest.head? = none := by rw [← step_eq, h]
      rw [finish, skip_of_step_none _ h, List.head?_eq_none_iff.mp none, (step_eq_none h).2]
  | case2 c n d h ih =>
      have head : c.rest.head? = some n := by rw [← step_eq, h]
      have tail : c.rest.tail = d.rest := by rw [← rest_step, h]
      obtain ⟨ns, rest⟩ := List.head?_eq_some_iff.mp head
      obtain rfl : ns = d.rest := by rw [← tail, rest, List.tail_cons]
      rw [ih, rest, finish, finish, remaining_of_step h, skip_succ_of_step _ h]

end Cursor

/-! ### Questions -/

/-- What one can ask of a cursor of which a copy is put aside. -/
inductive Ask where
  | next
  | nth (k : Nat)
  | length
  | bounds
  | rest
  | fork
  | swap
deriving DecidableEq, Repr

/-- What comes back; a place is a node with its depth. -/
inductive Reply where
  | place (p : Option (Nat × Nat))
  | length (k : Nat)
  | bounds (least : Nat) (greatest : Option Nat)
  | places (ps : List (Nat × Nat))
  | done
deriving DecidableEq, Repr

/-- What is in use, and what is put aside. -/
structure Held (κ : Type) where
  current : κ
  saved : κ
deriving DecidableEq, Repr

namespace Tree

/-- A node with its depth. -/
def place (t : Tree) (n : Nat) : Nat × Nat := (n, ((t.cell? n).map (·.depth)).getD 0)

/-- The reply to a question, and the cursors after it. -/
def answer (t : Tree) (held : Held Cursor) : Ask → Reply × Held Cursor
  | .next =>
    let (n, c) := held.current.step
    (.place (n.map t.place), { held with current := c })
  | .nth k =>
    let (n, c) := held.current.pass k
    (.place (n.map t.place), { held with current := c })
  | .length => (.length held.current.bounds.1, held)
  | .bounds => (.bounds held.current.bounds.1 held.current.bounds.2, held)
  | .rest =>
    let (ns, c) := held.current.drain
    (.places (ns.map t.place), { held with current := c })
  | .fork => (.done, { held with saved := held.current })
  | .swap => (.done, ⟨held.saved, held.current⟩)

/-- The replies to questions that are asked one after the other. -/
def answers (t : Tree) (held : Held Cursor) : List Ask → List Reply
  | []          => []
  | ask :: asks => (t.answer held ask).1 :: t.answers (t.answer held ask).2 asks

/-- The replies to questions about the nodes of a cursor, with a copy of it put aside. -/
def ask (t : Tree) (c : Cursor) (asks : List Ask) : List Reply := t.answers ⟨c, c⟩ asks

end Tree

end Sidebar
