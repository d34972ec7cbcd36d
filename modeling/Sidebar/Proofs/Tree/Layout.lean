import Sidebar.Proofs.Outline.Listing
import Sidebar.Tree.Builder
import Sidebar.Tree.Query

/-!
# Tree — the layout of an outline

The cells of an item stand in one block of the tree, and those of its children one after the other
behind its own.  So where an item stands, and how many cells it takes, can be told from its outline
alone.

* `Item.cells`, `Tree.layOut`: the cells of an item, and the tree of an outline, all at once.
* `toOutline_layOut`: the outline of a tree is the one it was laid out from.
* `listing_layOut`: the rows of a tree, in reading order, are those of its outline.
-/

namespace Sidebar

/-! ### Layout -/

/-- Where each of some items begins when they are laid out one after the other from `start` on. -/
def Item.starts (start : Nat) : List Item → List Nat
  | []      => []
  | x :: xs => start :: Item.starts (start + x.count) xs

mutual

/-- The cells of an item laid out from `start` on. -/
def Item.cells (start depth : Nat) (parent : Option Nat) : Item → List Cell
  | ⟨text, url, children⟩ =>
    ⟨text, url, depth, parent, start + 1 + Item.countAll children,
      Item.starts (start + 1) children⟩
      :: Item.cellsAll (start + 1) (depth + 1) (some start) children

/-- The cells of some items laid out one after the other from `start` on. -/
def Item.cellsAll (start depth : Nat) (parent : Option Nat) : List Item → List Cell
  | []      => []
  | x :: xs => x.cells start depth parent ++ Item.cellsAll (start + x.count) depth parent xs

end

mutual

theorem Item.length_cells (start depth : Nat) (parent : Option Nat) :
    (x : Item) → (x.cells start depth parent).length = x.count
  | ⟨text, url, children⟩ => by
      rw [Item.cells, Item.count, List.length_cons, Item.length_cellsAll, Nat.add_comm]

theorem Item.length_cellsAll (start depth : Nat) (parent : Option Nat) :
    (xs : List Item) → (Item.cellsAll start depth parent xs).length = Item.countAll xs
  | []      => rfl
  | x :: xs => by
      rw [Item.cellsAll, Item.countAll, List.length_append, Item.length_cells,
        Item.length_cellsAll]

end

/-- The index with the nodes of some cells, behind those it has; `start` is the node of the first
cell. -/
def Cell.index (byUrl : Std.TreeMap String (List Nat)) (start : Nat) :
    List Cell → Std.TreeMap String (List Nat)
  | []      => byUrl
  | c :: cs => Cell.index (Tree.enter byUrl c.url start) (start + 1) cs

/-- The tree of an outline, labels unchecked. -/
def Tree.layOut (o : Outline) : Tree :=
  let cells := Item.cellsAll 0 0 none o.items
  ⟨cells.toArray, Item.starts 0 o.items, Cell.index ∅ 0 cells⟩

theorem Tree.size_layOut (o : Outline) : (layOut o).size = o.count := by
  simp [layOut, size, Item.length_cellsAll, Outline.count]

/-! ### Blocks of cells -/

/-- The cells stand in the tree from the node `start` on. -/
def Tree.Holds (t : Tree) (start : Nat) (cells : List Cell) : Prop :=
  ∃ before after, t.cells.toList = before ++ cells ++ after ∧ before.length = start

namespace Tree

variable {t : Tree} {start : Nat}

theorem Holds.cell? {c : Cell} {cs : List Cell} (h : t.Holds start (c :: cs)) :
    t.cell? start = some c := by
  obtain ⟨before, after, e, rfl⟩ := h
  rw [Tree.cell?, ← Array.getElem?_toList, e]
  simp

theorem Holds.tail {c : Cell} {cs : List Cell} (h : t.Holds start (c :: cs)) :
    t.Holds (start + 1) cs := by
  obtain ⟨before, after, e, rfl⟩ := h
  exact ⟨before ++ [c], after, by simp [e], by simp⟩

theorem Holds.left {cs ds : List Cell} (h : t.Holds start (cs ++ ds)) : t.Holds start cs := by
  obtain ⟨before, after, e, rfl⟩ := h
  exact ⟨before, ds ++ after, by simp [e], rfl⟩

theorem Holds.right {cs ds : List Cell} (h : t.Holds start (cs ++ ds)) :
    t.Holds (start + cs.length) ds := by
  obtain ⟨before, after, e, rfl⟩ := h
  exact ⟨before ++ cs, after, by simp [e], by simp⟩

theorem holds_layOut (o : Outline) : (layOut o).Holds 0 (Item.cellsAll 0 0 none o.items) :=
  ⟨[], [], by simp [layOut], rfl⟩

/-! ### The outline of a tree -/

mutual

theorem itemUpTo_of_holds {k start depth : Nat} {parent : Option Nat} : (x : Item) →
    t.Holds start (x.cells start depth parent) → x.count ≤ k → t.itemUpTo k start = x
  | ⟨text, url, children⟩, h, hk => by
      rw [Item.cells] at h
      rw [Item.count] at hk
      obtain ⟨k, rfl⟩ := Nat.exists_eq_add_of_le hk
      -- one level is spent on the item, and the count of the others is enough for its children
      rw [Nat.add_assoc, Nat.add_comm 1, itemUpTo, h.cell?]
      simp only [Item.mk.injEq, true_and]
      exact itemsUpTo_of_holds children h.tail (Nat.le_add_right _ _)

theorem itemsUpTo_of_holds {k start depth : Nat} {parent : Option Nat} : (xs : List Item) →
    t.Holds start (Item.cellsAll start depth parent xs) → Item.countAll xs ≤ k →
      (Item.starts start xs).map (t.itemUpTo k) = xs
  | [], _, _ => rfl
  | x :: xs, h, hk => by
      rw [Item.cellsAll] at h
      rw [Item.countAll] at hk
      have hr := h.right
      rw [Item.length_cells] at hr
      rw [Item.starts, List.map_cons, itemUpTo_of_holds x h.left (by omega),
        itemsUpTo_of_holds xs hr (by omega)]

end

/-- The outline of a tree is the one it was laid out from. -/
theorem toOutline_layOut (o : Outline) : (layOut o).toOutline = o := by
  have h := itemsUpTo_of_holds o.items (holds_layOut o) (Nat.le_refl _)
  have size : (layOut o).size = Item.countAll o.items := size_layOut o
  rw [← size] at h
  exact congrArg Outline.mk h

end Tree

/-! ### Rows -/

/-- The label, the address and the depth of a cell. -/
def Cell.row (c : Cell) : String × String × Nat := (c.text, c.url, c.depth)

mutual

theorem Item.map_row_cells (start depth : Nat) (parent : Option Nat) : (x : Item) →
    (x.cells start depth parent).map Cell.row = x.listing depth
  | ⟨text, url, children⟩ => by
      rw [Item.cells, List.map_cons, Item.map_row_cellsAll, Item.listing, Cell.row]

theorem Item.map_row_cellsAll (start depth : Nat) (parent : Option Nat) : (xs : List Item) →
    (Item.cellsAll start depth parent xs).map Cell.row = Item.listingAll depth xs
  | [] => rfl
  | x :: xs => by
      rw [Item.cellsAll, List.map_append, Item.map_row_cells, Item.map_row_cellsAll,
        Item.listingAll]

end

namespace Tree

/-- The rows of the nodes, in reading order. -/
def listing (t : Tree) : List (String × String × Nat) :=
  t.traverse.rest.filterMap fun n => (t.cell? n).map Cell.row

theorem filterMap_range'_getElem? {α β : Type} (f : α → β) (before xs : List α) :
    (List.range' before.length xs.length).filterMap (fun n => (before ++ xs)[n]?.map f) =
      xs.map f := by
  induction xs generalizing before with
  | nil => rfl
  | cons x xs ih =>
      have := ih (before ++ [x])
      rw [List.length_append, List.length_singleton, List.append_assoc,
        List.singleton_append] at this
      rw [List.length_cons, List.range'_succ, List.filterMap_cons]
      simp [this]

theorem listing_eq (t : Tree) : t.listing = t.cells.toList.map Cell.row := by
  have := filterMap_range'_getElem? Cell.row [] t.cells.toList
  simpa [listing, traverse, Cursor.rest, Cursor.remaining, size, cell?] using this

/-- The rows of a tree are those of its outline. -/
theorem listing_layOut (o : Outline) : (layOut o).listing = o.listing := by
  rw [listing_eq]
  exact Item.map_row_cellsAll 0 0 none o.items

end Tree

end Sidebar
