import Mathlib.Order.Basic
import Sidebar.Proofs.Tree.Address
import Sidebar.Proofs.Tree.Trail

/-!
# Tree — ancestors

One gets from a node to the top level in as many steps as the node is deep, and each step leads one
level up.  So there is one node of each lesser depth on the way, and it is the only one of its depth
that the node is below.  The trail to an address lists these nodes for the first node with the
address.

* `Tree.TrailTo`: the nodes that lead from the top level down to a node.
* `Tree.isSome_up_iff`: how many steps there are to the top level.
* `Tree.atOrBelow_iff_up`: a node is below another one exactly if the way up passes it.
* `Tree.trail_leads`: the trail to each address, and the ancestors of each node.
-/

namespace Sidebar.Tree

/-- Some nodes lead from the top level down to the node `n`, whose cell is `c`.  There is one for
each lesser depth, the one whose subtree `n` is in, and each is the parent of the next and the last
that of `n`. -/
structure TrailTo (t : Tree) (n : Nat) (c : Cell) (trail : List Nat) : Prop where
  length : trail.length = c.depth
  node : ∀ k m, trail[k]? = some m ↔ k < c.depth ∧ ∃ d range,
    t.cell? m = some d ∧ d.depth = k ∧ t.subtree? m = some range ∧ n ∈ range.rest
  step : trail.IsChain fun p m => t.parent? m = some p
  last : trail.getLast? = t.parent? n

variable {t : Tree} {o : Outline} {n m k : Nat} {c d : Cell} {ms : List Nat}

/-! ### Steps up -/

theorem exists_cell_of_parent? (h : (layOut o).parent? n = some m) :
    ∃ d, (layOut o).cell? m = some d :=
  cell?_eq_some_iff_lt.mpr
    (Nat.lt_trans ((coherent_layOut o).parent?_lt h) (lt_size_of_parent? h))

theorem up_one (t : Tree) (n : Nat) : t.up 1 n = t.parent? n :=
  Option.bind_fun_some _

/-- Each step up is one level up. -/
theorem depth_up (h : (layOut o).up k n = some m) (hn : (layOut o).cell? n = some c) :
    ∃ d, (layOut o).cell? m = some d ∧ d.depth + k = c.depth := by
  induction k generalizing n c with
  | zero =>
      obtain rfl := Option.some.inj h
      exact ⟨c, hn, rfl⟩
  | succ k ih =>
      obtain ⟨p, hp, h⟩ := Option.bind_eq_some_iff.mp h
      obtain ⟨e, he⟩ := exists_cell_of_parent? hp
      obtain ⟨d, hd, depth⟩ := ih h he
      exact ⟨d, hd, by rw [depth_of_parent? hp hn he, ← depth, Nat.add_assoc]⟩

/-- As many steps lead up from a node as the node is deep, and no more. -/
theorem isSome_up_iff (h : (layOut o).cell? n = some c) :
    ((layOut o).up k n).isSome ↔ k ≤ c.depth := by
  induction k generalizing n c with
  | zero => exact iff_of_true rfl (Nat.zero_le _)
  | succ k ih =>
      rw [up]
      cases hp : (layOut o).parent? n with
      | none =>
          have top : (layOut o).AtTop n := ⟨cell?_eq_some_iff_lt.mp ⟨c, h⟩, hp⟩
          rw [depth_of_mem_roots (atTop_iff.mp top) h]
          exact iff_of_false Bool.false_ne_true (Nat.not_succ_le_zero k)
      | some p =>
          obtain ⟨d, hd⟩ := exists_cell_of_parent? hp
          rw [Option.bind_some, ih hd, depth_of_parent? hp h hd, Nat.succ_le_succ_iff]

/-- A node is at or below another one exactly if the way up passes that one at its depth. -/
theorem atOrBelow_iff_up (hn : (layOut o).cell? n = some c) (hm : (layOut o).cell? m = some d) :
    (layOut o).AtOrBelow m n ↔
      d.depth ≤ c.depth ∧ (layOut o).up (c.depth - d.depth) n = some m := by
  constructor
  · rintro ⟨k, hk⟩
    obtain ⟨d', hd, depth⟩ := depth_up hk hn
    obtain rfl := Option.some.inj (hm.symm.trans hd)
    obtain rfl : k = c.depth - d.depth := by omega
    exact ⟨by omega, hk⟩
  · exact fun ⟨_, h⟩ => ⟨_, h⟩

/-! ### Ancestors -/

/-- A climb meets the node that is one step up, then the one that is two steps up, and so on. -/
theorem Climbs.getElem? (h : t.Climbs n ms) : ms[k]? = t.up (k + 1) n := by
  induction h generalizing k with
  | top h => rw [Tree.up, h.2]; rfl
  | up h _ ih =>
      rw [Tree.up, h, Option.bind_some]
      cases k with
      | zero => rfl
      | succ k => exact ih

/-- A node has as many ancestors as it is deep. -/
theorem Climbs.length_eq (h : (layOut o).Climbs n ms) (hn : (layOut o).cell? n = some c) :
    ms.length = c.depth := by
  refine eq_of_forall_lt_iff fun k => ?_
  rw [← Nat.succ_le_iff (n := c.depth), ← isSome_up_iff hn, ← h.getElem?, isSome_getElem?]

/-- From the top level down, the ancestor of each depth is as far above the node as the node is
deeper. -/
theorem Climbs.getElem?_reverse (h : (layOut o).Climbs n ms) (hn : (layOut o).cell? n = some c) :
    ms.reverse[k]? = some m ↔ k < c.depth ∧ (layOut o).up (c.depth - k) n = some m := by
  have length := h.length_eq hn
  by_cases lt : k < ms.length
  · have steps : c.depth - k = ms.length - 1 - k + 1 := by omega
    rw [List.getElem?_reverse lt, h.getElem?, steps, ← length, and_iff_right lt]
  · have beyond : ms.reverse[k]? = none :=
      List.getElem?_eq_none (by rw [List.length_reverse]; exact Nat.not_lt.mp lt)
    rw [beyond, ← length]
    exact iff_of_false nofun fun ⟨lt', _⟩ => lt lt'

/-- A node is at or below itself and its ancestors. -/
theorem atOrBelow_iff_ancestor (hm : m < (layOut o).size) :
    (layOut o).AtOrBelow n m ↔ m = n ∨ n ∈ (layOut o).ancestors m := by
  have steps : n ∈ (layOut o).ancestors m ↔ ∃ k, (layOut o).up (k + 1) m = some n := by
    simp only [List.mem_iff_getElem?, (climbs_ancestors hm).getElem?]
  rw [steps]
  constructor
  · rintro ⟨k, hk⟩
    cases k with
    | zero => exact .inl (Option.some.inj hk)
    | succ k => exact .inr ⟨k, hk⟩
  · rintro (rfl | ⟨k, hk⟩)
    · exact .refl m
    · exact ⟨k + 1, hk⟩

/-! ### Trails -/

/-- The ancestors of a node, turned around, lead down to it. -/
theorem trailTo_ancestors (hn : (layOut o).cell? n = some c) :
    (layOut o).TrailTo n c ((layOut o).ancestors n).reverse := by
  have lt : n < (layOut o).size := cell?_eq_some_iff_lt.mp ⟨c, hn⟩
  have climbs := climbs_ancestors lt
  refine ⟨?_, fun k m => ?_, ?_, ?_⟩
  · rw [List.length_reverse, climbs.length_eq hn]
  · rw [climbs.getElem?_reverse hn]
    refine and_congr_right fun below => ⟨fun h => ?_, ?_⟩
    · obtain ⟨d, hd, depth⟩ := depth_up h hn
      have range := subtree?_eq hd
      exact ⟨d, _, hd, by omega, range, (mem_subtree_iff hd lt).mpr ⟨_, h⟩⟩
    · rintro ⟨d, range, hd, rfl, hr, hm⟩
      obtain rfl := Option.some.inj ((subtree?_eq hd).symm.trans hr)
      exact ((atOrBelow_iff_up hn hd).mp ((mem_subtree_iff hd lt).mp hm)).2
  · exact (List.isChain_append.mp (pathTo_ancestors lt).step).1
  · rw [List.getLast?_reverse, List.head?_eq_getElem?, climbs.getElem?, up_one]

/-- The trail to an address that no node has is empty, and any other one leads to the first node
with the address.  From each node there are as many steps up as it is deep, which are to its
ancestors. -/
theorem trail_leads {o : Outline} {t : Tree} (h : ofOutline o = .ok t) :
    (∀ url, (∀ n c, t.cell? n = some c → c.url ≠ url) → t.trail url = []) ∧
      (∀ url n c, t.First url n → t.cell? n = some c → t.TrailTo n c (t.trail url)) ∧
      ∀ n c, t.cell? n = some c → ∀ k,
        ((t.up k n).isSome ↔ k ≤ c.depth) ∧ (t.ancestors n)[k]? = t.up (k + 1) n := by
  obtain rfl := ofOutline_eq_ok h
  refine ⟨fun url none => ?_, fun url n c first hc => ?_, fun n c hc k => ⟨isSome_up_iff hc, ?_⟩⟩
  · rw [trail, find?_eq_none_iff.mpr none]
  · rw [trail, find?_eq_some_iff.mpr first]
    exact trailTo_ancestors hc
  · exact (climbs_ancestors (cell?_eq_some_iff_lt.mp ⟨c, hc⟩)).getElem?

/-- The nodes above the only one with the address `c`, and no trail to an unknown address. -/
theorem trail_leads_branched :
    ofOutline branched = .ok (layOut branched) ∧
      (layOut branched).First "c" 2 ∧
      (layOut branched).TrailTo 2 ⟨"C", "c", 2, some 1, 3, []⟩ [0, 1] ∧
      (layOut branched).trail "x" = [] ∧
      ((layOut branched).up 2 2).isSome ∧ ¬ ((layOut branched).up 3 2).isSome := by
  have first : (layOut branched).First "c" 2 := find?_eq_some_iff.mp (by decide +kernel)
  have trail : (layOut branched).trail "c" = [0, 1] := by decide +kernel
  have unknown := find?_eq_none_iff.mp (show (layOut branched).find? "x" = none by decide +kernel)
  obtain ⟨empty, leads, steps⟩ := trail_leads ofOutline_branched
  refine ⟨ofOutline_branched, first, trail ▸ leads "c" 2 _ first rfl, empty "x" unknown, ?_, ?_⟩
  · exact (steps 2 _ rfl 2).1.mpr (Nat.le_refl 2)
  · exact mt (steps 2 _ rfl 3).1.mp (by decide)

end Sidebar.Tree
