import Sidebar.Proofs.Tree.Row

/-!
# Tree — a tree is coherent

The cells of a tree agree with one another.  Parents come before their children, the nodes at or
below a node are the interval from it to its stop, its depth counts the steps up to the top level,
and the lists of children and of top-level nodes invert the parents.

* `Coherent`: what the cells of a tree have to do with one another.
* `coherent_layOut`: they are so in every tree that is laid out.
-/

namespace Sidebar

namespace Tree

/-- The node so many steps above a node: its parent, the parent of that one and so on. -/
def up (t : Tree) : Nat → Nat → Option Nat
  | 0, n     => some n
  | k + 1, n => (t.parent? n).bind (t.up k)

/-- A node without a parent. -/
def AtTop (t : Tree) (n : Nat) : Prop := n < t.size ∧ t.parent? n = none

/-- The node `m` is `n`, or `n` is on the way up from it. -/
def AtOrBelow (t : Tree) (n m : Nat) : Prop := ∃ k, t.up k m = some n

/-- The cells, their parents, depths, stops and children, and the top-level nodes of a tree belong
together. -/
structure Coherent (t : Tree) : Prop where
  cell : ∀ n, (∃ c, t.cell? n = some c) ↔ n < t.size
  stop : ∀ n c, t.cell? n = some c → n < c.stop ∧ c.stop ≤ t.size
  parent : ∀ n c p, t.cell? n = some c → c.parent = some p → p < n
  depth : ∀ n c, t.cell? n = some c → ∃ m, t.up c.depth n = some m ∧ t.AtTop m
  subtree : ∀ n c m, t.cell? n = some c → m < t.size →
    (t.AtOrBelow n m ↔ n ≤ m ∧ m < c.stop)
  children : ∀ n c, t.cell? n = some c →
    c.children.Pairwise (· < ·) ∧ ∀ m, m ∈ c.children ↔ t.parent? m = some n
  roots : t.roots.Pairwise (· < ·) ∧ ∀ m, m ∈ t.roots ↔ t.AtTop m

variable {t : Tree} {o : Outline} {n m p : Nat} {c : Cell}

theorem cell?_eq_some_iff_lt : (∃ c, t.cell? n = some c) ↔ n < t.size := by
  rw [cell?, size]
  constructor
  · rintro ⟨c, h⟩
    exact (Array.getElem?_eq_some_iff.mp h).1
  · exact fun h => ⟨_, Array.getElem?_eq_getElem h⟩

theorem AtOrBelow.refl (n : Nat) : t.AtOrBelow n n := ⟨0, rfl⟩

theorem AtOrBelow.step (h : t.parent? m = some p) (hp : t.AtOrBelow n p) : t.AtOrBelow n m := by
  obtain ⟨k, hk⟩ := hp
  exact ⟨k + 1, by rw [up, h]; exact hk⟩

/-- The row and the item that a cell belongs to. -/
theorem exists_row (h : (layOut o).cell? n = some c) :
    ∃ r x zs, (Row.top o).Below r ∧ r.At n x zs ∧
      c = ⟨x.text, x.url, r.depth, r.parent, n + x.count, (r.under n x).nodes⟩ := by
  obtain ⟨r, x, zs, hr, hx⟩ := Row.exists_at_of_lt (cell?_eq_some_iff_lt.mp ⟨c, h⟩)
  exact ⟨r, x, zs, hr, hx, Option.some.inj (h.symm.trans ((Row.stands_of_below hr).cell? hx))⟩

/-- A node with a parent stands in the row under it. -/
theorem exists_under_of_parent? (h : (layOut o).parent? m = some n) :
    ∃ r x zs y ws, (Row.top o).Below r ∧ r.At n x zs ∧ (r.under n x).At m y ws := by
  obtain ⟨c, hc, hp⟩ := Option.bind_eq_some_iff.mp h
  obtain ⟨r, y, ws, hr, hy, rfl⟩ := exists_row hc
  cases hr with
  | refl => exact nomatch hp
  | under hr hx =>
      obtain rfl := Option.some.inj hp
      exact ⟨_, _, _, y, ws, hr, hx, hy⟩

/-- A node without a parent stands in the row at the top. -/
theorem atTop_iff : (layOut o).AtTop m ↔ m ∈ (layOut o).roots := by
  have roots : (layOut o).roots = (Row.top o).nodes := rfl
  rw [roots, Row.mem_nodes, AtTop]
  constructor
  · rintro ⟨lt, h⟩
    obtain ⟨r, y, ws, hr, hy⟩ := Row.exists_at_of_lt lt
    cases hr with
    | refl => exact ⟨y, ws, hy⟩
    | under hr hx =>
        rw [Row.parent?_eq (hr.under hx) hy] at h
        exact nomatch h
  · rintro ⟨y, ws, hy⟩
    refine ⟨cell?_eq_some_iff_lt.mp ⟨_, (Row.stands_top o).cell? hy⟩, ?_⟩
    exact Row.parent?_eq .refl hy

theorem mem_children_iff (h : (layOut o).cell? n = some c) :
    m ∈ c.children ↔ (layOut o).parent? m = some n := by
  constructor
  · obtain ⟨r, x, zs, hr, hx, rfl⟩ := exists_row h
    intro hm
    obtain ⟨y, ws, hy⟩ := Row.mem_nodes.mp hm
    exact Row.parent?_eq (hr.under hx) hy
  · intro hm
    obtain ⟨r, x, zs, y, ws, hr, hx, hy⟩ := exists_under_of_parent? hm
    obtain rfl := Option.some.inj (h.symm.trans ((Row.stands_of_below hr).cell? hx))
    exact Row.mem_nodes.mpr ⟨y, ws, hy⟩

theorem pairwise_children (h : (layOut o).cell? n = some c) : c.children.Pairwise (· < ·) := by
  obtain ⟨r, x, zs, -, -, rfl⟩ := exists_row h
  exact Row.pairwise_starts _ _

/-- A parent comes before its children. -/
theorem parent_lt (h : (layOut o).cell? n = some c) (hp : c.parent = some p) : p < n := by
  have parent : (layOut o).parent? n = some p := by rw [parent?, h]; exact hp
  obtain ⟨r, x, zs, y, ws, -, -, hy⟩ := exists_under_of_parent? parent
  exact hy.start_le

theorem depth_of_mem_roots (h : n ∈ (layOut o).roots) (hc : (layOut o).cell? n = some c) :
    c.depth = 0 := by
  have roots : (layOut o).roots = (Row.top o).nodes := rfl
  rw [roots] at h
  obtain ⟨x, zs, hx⟩ := Row.mem_nodes.mp h
  obtain rfl := Option.some.inj (hc.symm.trans ((Row.stands_top o).cell? hx))
  rfl

/-- A parent is one level above its children. -/
theorem depth_of_parent? {d : Cell} (h : (layOut o).parent? m = some n)
    (hm : (layOut o).cell? m = some d) (hn : (layOut o).cell? n = some c) :
    d.depth = c.depth + 1 := by
  obtain ⟨r, x, zs, y, ws, hr, hx, hy⟩ := exists_under_of_parent? h
  obtain rfl := Option.some.inj (hn.symm.trans ((Row.stands_of_below hr).cell? hx))
  obtain rfl := Option.some.inj (hm.symm.trans ((Row.stands_of_below (hr.under hx)).cell? hy))
  rfl

/-- The depth of a row is the number of steps from its nodes to the top level. -/
theorem up_depth {r : Row} {x : Item} {zs : List Item} (h : (Row.top o).Below r)
    (hx : r.At n x zs) : ∃ m, (layOut o).up r.depth n = some m ∧ (layOut o).AtTop m := by
  induction h generalizing n x zs with
  | refl => exact ⟨n, rfl, atTop_iff.mpr (Row.mem_nodes.mpr ⟨x, zs, hx⟩)⟩
  | under hr hy ih =>
      obtain ⟨m, hm, top⟩ := ih hy
      refine ⟨m, ?_, top⟩
      rw [Row.under, up, Row.parent?_eq (hr.under hy) hx]
      exact hm

/-! ### Intervals -/

theorem lt_stop (h : (layOut o).cell? n = some c) : n < c.stop := by
  obtain ⟨r, x, zs, -, -, rfl⟩ := exists_row h
  exact Nat.lt_add_of_pos_right x.count_pos

theorem stop_le_size (h : (layOut o).cell? n = some c) : c.stop ≤ (layOut o).size := by
  obtain ⟨r, x, zs, hr, hx, rfl⟩ := exists_row h
  rw [size_layOut, ← Row.top_stop]
  exact Nat.le_trans hx.stop_le hr.stop_le

/-- All the way up, the intervals lie in one another. -/
theorem interval_up {k : Nat} {d : Cell} (hn : (layOut o).cell? n = some c)
    (hm : (layOut o).cell? m = some d) (h : (layOut o).up k m = some n) :
    n ≤ m ∧ d.stop ≤ c.stop := by
  induction k generalizing m d with
  | zero =>
      obtain rfl := Option.some.inj h
      obtain rfl := Option.some.inj (hn.symm.trans hm)
      exact ⟨Nat.le_refl m, Nat.le_refl _⟩
  | succ k ih =>
      -- the parent's interval holds that of `m`, whose item stands in the row under it
      obtain ⟨p, hp, h⟩ := Option.bind_eq_some_iff.mp h
      obtain ⟨r, x, zs, y, ws, hr, hx, hy⟩ := exists_under_of_parent? hp
      have ⟨le, stop⟩ := ih ((Row.stands_of_below hr).cell? hx) h
      obtain rfl :=
        Option.some.inj (hm.symm.trans ((Row.stands_of_below (hr.under hx)).cell? hy))
      have inside : m + y.count ≤ p + x.count := Row.under_stop r p x ▸ hy.stop_le
      exact ⟨Nat.le_trans le (Nat.le_of_lt hy.start_le), Nat.le_trans inside stop⟩

/-- From every row under a node the way up leads to it. -/
theorem atOrBelow_of_below {r s : Row} {x y : Item} {zs ws : List Item} (hr : (Row.top o).Below r)
    (hx : r.At n x zs) (h : (r.under n x).Below s) (hy : s.At m y ws) :
    (layOut o).AtOrBelow n m := by
  induction h generalizing m y ws with
  | refl => exact .step (Row.parent?_eq (hr.under hx) hy) (.refl n)
  | under hs hz ih =>
      exact .step (Row.parent?_eq (((hr.under hx).trans hs).under hz) hy) (ih hz)

/-- The nodes at or below a node are those of its interval. -/
theorem atOrBelow_iff (h : (layOut o).cell? n = some c) (hm : m < (layOut o).size) :
    (layOut o).AtOrBelow n m ↔ n ≤ m ∧ m < c.stop := by
  constructor
  · rintro ⟨k, hk⟩
    obtain ⟨d, hd⟩ := cell?_eq_some_iff_lt.mpr hm
    have ⟨le, stop⟩ := interval_up h hd hk
    exact ⟨le, Nat.lt_of_lt_of_le (lt_stop hd) stop⟩
  · rintro ⟨le, lt⟩
    obtain ⟨r, x, zs, hr, hx, rfl⟩ := exists_row h
    rcases Nat.eq_or_lt_of_le le with rfl | le
    · exact .refl n
    · obtain ⟨s, y, ws, hs, hy⟩ :=
        Row.exists_at (r.under n x) le (Nat.lt_of_lt_of_eq lt (Row.under_stop r n x).symm)
      exact atOrBelow_of_below hr hx hs hy

theorem subtree?_eq (h : t.cell? n = some c) : t.subtree? n = some ⟨n, c.stop⟩ := by
  rw [subtree?, h]
  rfl

/-- A cursor below a node steps to the nodes at or below it. -/
theorem mem_subtree_iff (h : (layOut o).cell? n = some c) (hm : m < (layOut o).size) :
    m ∈ (Cursor.mk n c.stop).rest ↔ (layOut o).AtOrBelow n m := by
  have stop : n + (c.stop - n) = c.stop := Nat.add_sub_cancel' (Nat.le_of_lt (lt_stop h))
  rw [Cursor.rest, List.mem_range'_1, Cursor.remaining, stop, atOrBelow_iff h hm]

/-- Whatever is laid out is coherent. -/
theorem coherent_layOut (o : Outline) : (layOut o).Coherent where
  cell _ := cell?_eq_some_iff_lt
  stop _ _ h := ⟨lt_stop h, stop_le_size h⟩
  parent _ _ _ h hp := parent_lt h hp
  depth _ _ h := by
    obtain ⟨r, x, zs, hr, hx, rfl⟩ := exists_row h
    exact up_depth hr hx
  subtree _ _ _ h hm := atOrBelow_iff h hm
  children _ _ h := ⟨pairwise_children h, fun _ => mem_children_iff h⟩
  roots := ⟨Row.pairwise_starts 0 o.items, fun _ => atTop_iff.symm⟩

/-- Every tree that is built is coherent. -/
theorem ofOutline_coherent (h : ofOutline o = .ok t) : t.Coherent :=
  ofOutline_eq_ok h ▸ coherent_layOut o

/-- Two branches, and a node at the end of two intervals. -/
def branched : Outline :=
  ⟨[⟨"A", "", [⟨"B", "b", [⟨"C", "c", []⟩]⟩]⟩, ⟨"D", "d", []⟩]⟩

theorem ofOutline_branched : ofOutline branched = .ok (layOut branched) :=
  rfl

theorem ofOutline_coherent_branched :
    ofOutline branched = .ok (layOut branched) ∧ (layOut branched).Coherent :=
  ⟨ofOutline_branched, ofOutline_coherent ofOutline_branched⟩

end Tree

end Sidebar
