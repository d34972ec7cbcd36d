import Sidebar.Proofs.Tree.Build

/-!
# Tree — rows

The items right below one node, or at the top level, are a row: they stand one after the other,
all at one depth and with one parent.  A tree consists of the row at the top and of the rows below
the items of its rows.

* `Row.exists_at`: every node of a row is that of an item in it or in a row below.
* `Row.Stands.cell?`: the cell of an item in a row.
* `Row.levelStop_eq`, `Row.nextSibling?_eq`, `Row.item_eq`: what a tree says of a node, in terms of
  the row that the node stands in.
-/

namespace Sidebar

/-- Items laid out one after the other, with their depth and their parent. -/
structure Row where
  start : Nat
  depth : Nat
  parent : Option Nat
  items : List Item

namespace Row

/-- The end of the last item. -/
def stop (r : Row) : Nat := r.start + Item.countAll r.items

/-- The nodes of the items. -/
def nodes (r : Row) : List Nat := Item.starts r.start r.items

/-- The row stands in the tree. -/
def Stands (t : Tree) (r : Row) : Prop :=
  t.Holds r.start (Item.cellsAll r.start r.depth r.parent r.items)

/-- The items of an outline. -/
def top (o : Outline) : Row := ⟨0, 0, none, o.items⟩

/-- The items right below the item `x` at node `n` of a row. -/
def under (r : Row) (n : Nat) (x : Item) : Row := ⟨n + 1, r.depth + 1, some n, x.children⟩

/-- The item `x` stands at node `n` of the row, before the items `zs`. -/
def At (r : Row) (n : Nat) (x : Item) (zs : List Item) : Prop :=
  ∃ ys, r.items = ys ++ x :: zs ∧ n = r.start + Item.countAll ys

/-- The row is `a` or below an item of `a`, at any depth. -/
inductive Below (a : Row) : Row → Prop where
  | refl : Below a a
  | under {r : Row} {n : Nat} {x : Item} {zs : List Item} (h : Below a r) (hx : r.At n x zs) :
      Below a (r.under n x)

variable {t : Tree} {a r : Row} {n m : Nat} {x : Item} {zs : List Item}

/-! ### The items of a row -/

theorem top_stop (o : Outline) : (top o).stop = o.count := Nat.zero_add _

theorem under_stop (r : Row) (n : Nat) (x : Item) : (r.under n x).stop = n + x.count := by
  cases x
  simp only [stop, under, Item.count, Nat.add_assoc]

theorem At.start_le (h : r.At n x zs) : r.start ≤ n := by
  obtain ⟨ys, -, rfl⟩ := h
  exact Nat.le_add_right _ _

/-- The items after `x` take what is left of the row. -/
theorem At.add_countAll (h : r.At n x zs) : n + x.count + Item.countAll zs = r.stop := by
  obtain ⟨ys, e, rfl⟩ := h
  rw [stop, e, Item.countAll_append, Item.countAll]
  omega

theorem At.stop_le (h : r.At n x zs) : n + x.count ≤ r.stop :=
  h.add_countAll ▸ Nat.le_add_right _ _

/-- An item is the last of its row exactly when the row ends with it. -/
theorem At.lt_stop_iff (h : r.At n x zs) : n + x.count < r.stop ↔ zs ≠ [] := by
  rw [← h.add_countAll]
  cases zs with
  | nil => simp [Item.countAll]
  | cons z zs =>
      have := z.count_pos
      simp only [Item.countAll, ne_eq, reduceCtorEq, not_false_eq_true, iff_true]
      omega

theorem mem_starts {start : Nat} (xs : List Item) :
    n ∈ Item.starts start xs ↔ ∃ ys x zs, xs = ys ++ x :: zs ∧ n = start + Item.countAll ys := by
  induction xs generalizing start with
  | nil => simp [Item.starts]
  | cons x xs ih =>
      rw [Item.starts, List.mem_cons, ih]
      constructor
      · rintro (rfl | ⟨ys, y, zs, rfl, rfl⟩)
        · exact ⟨[], x, xs, rfl, rfl⟩
        · exact ⟨x :: ys, y, zs, rfl, Nat.add_assoc ..⟩
      · rintro ⟨ys, y, zs, e, rfl⟩
        cases ys with
        | nil => exact .inl rfl
        | cons z ys =>
            obtain ⟨rfl, rfl⟩ := List.cons.inj e
            exact .inr ⟨ys, y, zs, rfl, (Nat.add_assoc ..).symm⟩

theorem mem_nodes : n ∈ r.nodes ↔ ∃ x zs, r.At n x zs := by
  rw [nodes, mem_starts]
  exact ⟨fun ⟨ys, x, zs, e⟩ => ⟨x, zs, ys, e⟩, fun ⟨x, zs, ys, e⟩ => ⟨ys, x, zs, e⟩⟩

theorem isEmpty_nodes (r : Row) : r.nodes.isEmpty = r.items.isEmpty := by
  obtain ⟨start, depth, parent, items⟩ := r
  cases items <;> rfl

theorem le_of_mem_starts {start : Nat} {xs : List Item} (h : n ∈ Item.starts start xs) :
    start ≤ n := by
  obtain ⟨ys, x, zs, -, rfl⟩ := (mem_starts xs).mp h
  exact Nat.le_add_right _ _

theorem pairwise_starts (start : Nat) (xs : List Item) :
    (Item.starts start xs).Pairwise (· < ·) := by
  induction xs generalizing start with
  | nil => exact .nil
  | cons x xs ih =>
      refine .cons (fun n hn => ?_) (ih _)
      have := le_of_mem_starts hn
      have := x.count_pos
      omega

/-! ### Rows in a tree -/

theorem cellsAll_append (start depth : Nat) (parent : Option Nat) (xs ys : List Item) :
    Item.cellsAll start depth parent (xs ++ ys) =
      Item.cellsAll start depth parent xs ++
        Item.cellsAll (start + Item.countAll xs) depth parent ys := by
  induction xs generalizing start with
  | nil => rfl
  | cons x xs ih =>
      rw [List.cons_append, Item.cellsAll, ih, Item.cellsAll, Item.countAll, List.append_assoc,
        Nat.add_assoc]

theorem stands_top (o : Outline) : (top o).Stands (Tree.layOut o) := Tree.holds_layOut o

theorem Stands.item (h : r.Stands t) (hx : r.At n x zs) :
    t.Holds n (x.cells n r.depth r.parent) := by
  obtain ⟨ys, e, rfl⟩ := hx
  unfold Stands at h
  rw [e, cellsAll_append] at h
  have := h.right
  rw [Item.length_cellsAll, Item.cellsAll] at this
  exact this.left

/-- The cell of an item in a row. -/
theorem Stands.cell? (h : r.Stands t) (hx : r.At n x zs) :
    t.cell? n = some ⟨x.text, x.url, r.depth, r.parent, n + x.count, (r.under n x).nodes⟩ := by
  have := h.item hx
  obtain ⟨text, url, children⟩ := x
  rw [Item.cells] at this
  rw [this.cell?, Item.count, ← Nat.add_assoc]
  rfl

theorem Stands.under (h : r.Stands t) (hx : r.At n x zs) : (r.under n x).Stands t := by
  have := h.item hx
  obtain ⟨text, url, children⟩ := x
  rw [Item.cells] at this
  exact this.tail

theorem Stands.below (ha : a.Stands t) (h : a.Below r) : r.Stands t := by
  induction h with
  | refl => exact ha
  | under _ hx ih => exact ih.under hx

theorem Below.trans {b : Row} (hab : a.Below b) (h : b.Below r) : a.Below r := by
  induction h with
  | refl => exact hab
  | under _ hx ih => exact ih.under hx

/-- A row ends with the row above or before. -/
theorem Below.stop_le (h : a.Below r) : r.stop ≤ a.stop := by
  induction h with
  | refl => exact Nat.le_refl _
  | under _ hx ih => exact under_stop .. ▸ Nat.le_trans hx.stop_le ih

mutual

/-- Every node of an item is that of an item in its row or in a row below. -/
theorem exists_at_item {m : Nat} : {r : Row} → {n : Nat} → {zs : List Item} → (x : Item) →
    r.At n x zs → n ≤ m → m < n + x.count → ∃ s y ws, r.Below s ∧ s.At m y ws
  | r, n, zs, ⟨text, url, children⟩, hx, le, lt => by
      by_cases e : m = n
      · exact ⟨r, _, _, .refl, e ▸ hx⟩
      · obtain ⟨s, y, ws, hs, hy⟩ :=
          exists_at_items (r := r.under n ⟨text, url, children⟩) children [] rfl
            (Nat.lt_of_le_of_ne le (Ne.symm e)) (under_stop .. ▸ lt)
        exact ⟨s, y, ws, (Below.refl.under hx).trans hs, hy⟩

theorem exists_at_items {m : Nat} : {r : Row} → (xs ys : List Item) → r.items = ys ++ xs →
    r.start + Item.countAll ys ≤ m → m < r.stop → ∃ s y ws, r.Below s ∧ s.At m y ws
  | r, [], ys, e, le, lt => by
      rw [List.append_nil] at e
      rw [stop, e] at lt
      exact absurd lt (Nat.not_lt.mpr le)
  | r, x :: xs, ys, e, le, lt => by
      have hx : r.At (r.start + Item.countAll ys) x xs := ⟨ys, e, rfl⟩
      by_cases h : m < r.start + Item.countAll ys + x.count
      · exact exists_at_item x hx le h
      · refine exists_at_items xs (ys ++ [x]) (by rw [e, List.append_assoc]; rfl) ?_ lt
        rw [Item.countAll_append, Item.countAll, Item.countAll, ← Nat.add_assoc]
        exact Nat.not_lt.mp h

end

/-- Every node of a row is that of an item in it or in a row below. -/
theorem exists_at (r : Row) (le : r.start ≤ m) (lt : m < r.stop) :
    ∃ s y ws, r.Below s ∧ s.At m y ws :=
  exists_at_items r.items [] rfl le lt

/-! ### The rows of an outline's tree -/

section
variable {o : Outline}

/-- A row of the tree of `o`. -/
theorem stands_of_below (h : (top o).Below r) : r.Stands (Tree.layOut o) :=
  (stands_top o).below h

/-- A node is that of an item in a row. -/
theorem exists_at_of_lt (h : n < (Tree.layOut o).size) :
    ∃ r x zs, (top o).Below r ∧ r.At n x zs :=
  exists_at (top o) (Nat.zero_le n) (top_stop o ▸ Tree.size_layOut o ▸ h)

theorem parent?_eq (h : (top o).Below r) (hx : r.At n x zs) :
    (Tree.layOut o).parent? n = r.parent := by
  rw [Tree.parent?, (stands_of_below h).cell? hx, Option.bind_some]

theorem levelStop_eq (h : (top o).Below r) : (Tree.layOut o).levelStop r.parent = r.stop := by
  cases h with
  | refl => exact (Tree.size_layOut o).trans (top_stop o).symm
  | under h hx =>
      rw [under_stop, under, Tree.levelStop, (stands_of_below h).cell? hx]
      rfl

/-- The last item of a row has no sibling after it, and another one the item behind it. -/
theorem nextSibling?_eq (h : (top o).Below r) (hx : r.At n x zs) :
    (Tree.layOut o).nextSibling? n = if zs = [] then none else some (n + x.count) := by
  rw [Tree.nextSibling?, (stands_of_below h).cell? hx, Option.bind_some, levelStop_eq h]
  by_cases e : zs = []
  · rw [if_pos e, if_neg (mt hx.lt_stop_iff.mp (not_not_intro e))]
  · rw [if_neg e, if_pos (hx.lt_stop_iff.mpr e)]

theorem item_eq (h : (top o).Below r) (hx : r.At n x zs) : (Tree.layOut o).item n = x := by
  refine Tree.itemUpTo_of_holds x ((stands_of_below h).item hx) ?_
  rw [Tree.size_layOut, ← top_stop]
  exact Nat.le_trans (Nat.le_add_left _ n) (Nat.le_trans hx.stop_le h.stop_le)

end

end Row

end Sidebar
