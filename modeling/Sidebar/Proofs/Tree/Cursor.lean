import Mathlib.Data.List.Sort
import Sidebar.Proofs.Tree.Ancestor
import Sidebar.Tree.Ask

/-!
# Tree — cursors as lists

Whatever one asks of a cursor, it replies as the list of the places to come would: to step is to
take the first of them, to pass over some is to drop them, and to list them is to take them all.  A
copy that is put aside has a list of its own, which no step of the other one changes.

* `Held.reply`, `Held.replies`: the replies of a pair of lists.
* `Tree.reply_listed`, `Tree.replies_listed`: a pair of cursors replies as its lists do.
* `Tree.ask_listed`: the lists of the cursors in a tree.
-/

namespace Sidebar

namespace Held

/-- The reply of some places to come, and the places after it. -/
def reply (held : Held (List (Nat × Nat))) : Ask → Reply × Held (List (Nat × Nat))
  | .next   => (.place held.current.head?, { held with current := held.current.tail })
  | .nth k  => (.place held.current[k]?, { held with current := held.current.drop (k + 1) })
  | .length => (.length held.current.length, held)
  | .bounds => (.bounds held.current.length (some held.current.length), held)
  | .rest   => (.places held.current, { held with current := [] })
  | .fork   => (.done, { held with saved := held.current })
  | .swap   => (.done, ⟨held.saved, held.current⟩)

/-- The replies to questions that are asked one after the other. -/
def replies (held : Held (List (Nat × Nat))) : List Ask → List Reply
  | []          => []
  | ask :: asks => (held.reply ask).1 :: (held.reply ask).2.replies asks

end Held

/-! ### Cursors -/

namespace Cursor

theorem step_nth (k : Nat) (c : Cursor) : (c.nth k).1 = c.rest[k]? := by
  rw [nth, step_eq, rest_skip, List.head?_drop]

theorem rest_nth (k : Nat) (c : Cursor) : (c.nth k).2.rest = c.rest.drop (k + 1) := by
  rw [nth, rest_step, rest_skip, List.tail_drop]

theorem rest_finish (c : Cursor) : c.finish.rest = [] := by
  rw [finish, rest_skip, ← length_rest, List.drop_length]

theorem pairwise_rest (c : Cursor) : c.rest.Pairwise (· < ·) := List.pairwise_lt_range'

end Cursor

namespace Tree

/-! ### Questions -/

/-- The places to come of two cursors. -/
def listed (t : Tree) (held : Held Cursor) : Held (List (Nat × Nat)) :=
  ⟨held.current.rest.map t.place, held.saved.rest.map t.place⟩

/-- Two cursors reply to a question as their places do. -/
theorem reply_listed (t : Tree) (held : Held Cursor) (ask : Ask) :
    (t.listed held).reply ask = ((t.answer held ask).1, t.listed (t.answer held ask).2) := by
  obtain ⟨c, saved⟩ := held
  cases ask with
  | next =>
      simp only [listed, Held.reply, answer, Cursor.step_eq, Cursor.rest_step, List.head?_map,
        List.map_tail]
  | nth k =>
      simp only [listed, Held.reply, answer, Cursor.pass_eq, Cursor.step_nth, Cursor.rest_nth,
        List.getElem?_map, List.map_drop]
  | length =>
      simp only [listed, Held.reply, answer, Cursor.bounds, List.length_map, Cursor.length_rest]
  | bounds =>
      simp only [listed, Held.reply, answer, Cursor.bounds, List.length_map, Cursor.length_rest]
  | rest =>
      simp only [listed, Held.reply, answer, Cursor.drain_eq, Cursor.rest_finish, List.map_nil]
  | fork => rfl
  | swap => rfl

/-- Two cursors reply to questions, one after the other, as their places do. -/
theorem replies_listed (t : Tree) (held : Held Cursor) (asks : List Ask) :
    (t.listed held).replies asks = t.answers held asks := by
  induction asks generalizing held with
  | nil => rfl
  | cons ask asks ih => rw [Held.replies, answers, reply_listed, ih]

/-! ### Trees -/

/-- The nodes of a tree in their order, each with its depth. -/
def places (t : Tree) : List (Nat × Nat) :=
  t.cells.toList.zipIdx.map fun e => (e.2, e.1.depth)

/-- The places of a node and of those that have it as an ancestor. -/
def placesBelow (t : Tree) (n : Nat) : List (Nat × Nat) :=
  t.places.filter fun p => p.1 == n || (t.ancestors p.1).contains n

variable {t : Tree} {o : Outline} {n m : Nat} {c : Cell}

theorem map_place_traverse (t : Tree) : t.traverse.rest.map t.place = t.places := by
  have length : (t.traverse.rest.map t.place).length = t.places.length := by
    rw [List.length_map, Cursor.length_rest, places, List.length_map, List.length_zipIdx]
    rfl
  refine List.ext_getElem length fun n lt _ => ?_
  have lt : n < t.cells.size := by rwa [List.length_map, Cursor.length_rest] at lt
  simp [places, place, traverse, cell?, Cursor.rest, Array.getElem?_eq_getElem lt]

theorem mem_traverse_iff : m ∈ t.traverse.rest ↔ m < t.size := by
  rw [traverse, Cursor.rest, List.mem_range'_1]
  simp only [Cursor.remaining]
  omega

/-- The places of the nodes that a cursor below a node steps to. -/
theorem map_place_subtree (h : (layOut o).cell? n = some c) :
    (Cursor.mk n c.stop).rest.map (layOut o).place = (layOut o).placesBelow n := by
  rw [placesBelow, ← map_place_traverse, List.filter_map]
  -- both lists of nodes rise, so they are equal if they have the same members
  refine congrArg (List.map _) ((Cursor.pairwise_rest _).eq_of_mem_iff
    ((Cursor.pairwise_rest _).filter _) fun m => ?_)
  rw [List.mem_filter, mem_traverse_iff]
  by_cases hm : m < (layOut o).size
  · rw [mem_subtree_iff h hm, atOrBelow_iff_ancestor hm, and_iff_right hm, Function.comp_apply,
      place, Bool.or_eq_true, beq_iff_eq, List.contains_iff_mem]
  · refine iff_of_false (fun inside => hm ?_) fun inside => hm inside.1
    have below : m < n + (c.stop - n) := (List.mem_range'_1.mp inside).2
    have first := lt_stop h
    have stop := stop_le_size h
    omega

/-- A cursor over a tree, or over the nodes at or below one of them, replies to all questions as
the list of its places does, also with a copy put aside and exchanged. -/
theorem ask_listed {o : Outline} {t : Tree} (h : ofOutline o = .ok t) (asks : List Ask) :
    t.ask t.traverse asks = Held.replies ⟨t.places, t.places⟩ asks ∧
      ∀ n < t.size, ∃ c, t.subtree? n = some c ∧
        t.ask c asks = Held.replies ⟨t.placesBelow n, t.placesBelow n⟩ asks := by
  obtain rfl := ofOutline_eq_ok h
  refine ⟨?_, fun n hn => ?_⟩
  · rw [ask, ← replies_listed, listed, map_place_traverse]
  · obtain ⟨c, hc⟩ := cell?_eq_some_iff_lt.mpr hn
    refine ⟨_, subtree?_eq hc, ?_⟩
    rw [ask, ← replies_listed, listed, map_place_subtree hc]

/-- Passing over more than is left ends a cursor, while the copy of it goes on.  Below node 1 there
are the nodes 1 and 2. -/
theorem ask_listed_branched :
    ofOutline branched = .ok (layOut branched) ∧
      (layOut branched).ask (layOut branched).traverse
          [.next, .fork, .nth 7, .next, .length, .swap, .bounds, .nth 1, .rest, .next] =
        [.place (some (0, 0)), .done, .place none, .place none, .length 0, .done, .bounds 3 (some 3),
          .place (some (2, 2)), .places [(3, 0)], .place none] ∧
      1 < (layOut branched).size ∧
      ∃ c, (layOut branched).subtree? 1 = some c ∧
        (layOut branched).ask c [.length, .nth 1, .swap, .rest] =
          [.length 2, .place (some (2, 2)), .done, .places [(1, 1), (2, 2)]] := by
  have within : 1 < (layOut branched).size := by decide
  obtain ⟨c, hc, below⟩ :=
    (ask_listed ofOutline_branched [.length, .nth 1, .swap, .rest]).2 1 within
  exact ⟨ofOutline_branched, (ask_listed ofOutline_branched _).1, within, c, hc, below⟩

end Tree

end Sidebar
