import Sidebar.Proofs.Tree.Coherent

/-!
# Tree — reading order

Going through an outline one meets an item first and then the items below it, from left to right.
A tree does not go down into anything: its cursors count the nodes, and a node and those below it
are a range of them.  Both ways meet the same items in the same order.

* `Item.visits`: an item and the items below it, each with those around it.
* `Cursor.Yields`: the nodes that a cursor steps to.
* `Tree.Holds.map_item`: the items of the nodes that an item is laid out in.
* `Tree.traverse_preorder`: the nodes of a tree, and those at or below a node, in the order of the
  items.
-/

namespace Sidebar

/-! ### Visits -/

/-- An item as one meets it, with the items around it, from the inside out. -/
structure Visit where
  item : Item
  around : List Item

/-- The label, the address and the depth, which is the number of items around. -/
def Visit.row (v : Visit) : String × String × Nat := (v.item.text, v.item.url, v.around.length)

mutual

/-- An item, and then what is below it. -/
def Item.visits (around : List Item) : Item → List Visit
  | ⟨text, url, children⟩ =>
    ⟨⟨text, url, children⟩, around⟩ :: Item.visitsAll (⟨text, url, children⟩ :: around) children

/-- Items with what is below them, from left to right. -/
def Item.visitsAll (around : List Item) : List Item → List Visit
  | []      => []
  | x :: xs => x.visits around ++ Item.visitsAll around xs

end

/-- The visits of an outline. -/
def Outline.visits (o : Outline) : List Visit := Item.visitsAll [] o.items

/-- A row so many levels further down. -/
def deeper (k : Nat) (row : String × String × Nat) : String × String × Nat :=
  (row.1, row.2.1, row.2.2 + k)

namespace Item

mutual

theorem map_row_visits (around : List Item) : (x : Item) →
    (x.visits around).map Visit.row = x.listing around.length
  | ⟨text, url, children⟩ => by
      rw [visits, List.map_cons, map_row_visitsAll, listing, Visit.row, List.length_cons]

theorem map_row_visitsAll (around : List Item) : (xs : List Item) →
    (visitsAll around xs).map Visit.row = listingAll around.length xs
  | [] => rfl
  | x :: xs => by
      rw [visitsAll, List.map_append, map_row_visits, map_row_visitsAll, listingAll]

end

mutual

theorem listing_add (d k : Nat) : (x : Item) → x.listing (d + k) = (x.listing d).map (deeper k)
  | ⟨text, url, children⟩ => by
      rw [listing, listing, List.map_cons, ← listingAll_add, Nat.add_right_comm, deeper]

theorem listingAll_add (d k : Nat) : (xs : List Item) →
    listingAll (d + k) xs = (listingAll d xs).map (deeper k)
  | [] => rfl
  | x :: xs => by
      rw [listingAll, listingAll, List.map_append, listing_add, listingAll_add]

end

/-- The rows of an item `k` deep, from its visits on its own. -/
theorem listing_eq_map_visits (k : Nat) (x : Item) :
    x.listing k = (x.visits []).map fun v => deeper k v.row := by
  have alone := congrArg (List.map (deeper k)) (x.map_row_visits [])
  rw [List.map_map, List.length_nil, ← listing_add, Nat.zero_add] at alone
  exact alone.symm

end Item

/-! ### Cursors -/

/-- The nodes that a cursor steps to, one after the other, until it is at its end. -/
inductive Cursor.Yields : Cursor → List Nat → Prop where
  | done {c : Cursor} (h : c.step.1 = none) : Yields c []
  | next {c : Cursor} {n : Nat} {ns : List Nat} (h : c.step.1 = some n) (t : Yields c.step.2 ns) :
      Yields c (n :: ns)

/-- A cursor steps to the nodes that are to come. -/
theorem Cursor.yields_rest (c : Cursor) : c.Yields c.rest := by
  generalize e : c.rest = ns
  induction ns generalizing c with
  | nil => exact .done (by rw [step_eq, e, List.head?_nil])
  | cons n ns ih =>
      refine .next (by rw [step_eq, e, List.head?_cons]) (ih _ ?_)
      rw [rest_step, e, List.tail_cons]

namespace Tree

variable {t : Tree} {start : Nat}

/-! ### Blocks -/

theorem Holds.length_le {cs : List Cell} (h : t.Holds start cs) : cs.length ≤ t.size := by
  obtain ⟨before, after, e, -⟩ := h
  have size : t.size = t.cells.toList.length := rfl
  rw [size, e, List.length_append, List.length_append]
  omega

/-- The nodes of a block have its cells. -/
theorem Holds.map_cell? {cs : List Cell} (h : t.Holds start cs) :
    (List.range' start cs.length).map t.cell? = cs.map some := by
  induction cs generalizing start with
  | nil => rfl
  | cons c cs ih =>
      rw [List.length_cons, List.range'_succ, List.map_cons, List.map_cons, h.cell?, ih h.tail]

mutual

/-- The nodes that an item is laid out in have the items that are met in it. -/
theorem Holds.map_item {start depth : Nat} {parent : Option Nat} (around : List Item) :
    (x : Item) → t.Holds start (x.cells start depth parent) →
    (List.range' start x.count).map t.item = (x.visits around).map Visit.item
  | ⟨text, url, children⟩, h => by
      have fits := h.length_le
      rw [Item.length_cells] at fits
      have first : t.item start = ⟨text, url, children⟩ := itemUpTo_of_holds _ h fits
      rw [Item.cells] at h
      rw [Item.count, Nat.add_comm, List.range'_succ, List.map_cons, first, Item.visits,
        List.map_cons, Holds.map_itemAll _ children h.tail]

theorem Holds.map_itemAll {start depth : Nat} {parent : Option Nat} (around : List Item) :
    (xs : List Item) → t.Holds start (Item.cellsAll start depth parent xs) →
    (List.range' start (Item.countAll xs)).map t.item =
      (Item.visitsAll around xs).map Visit.item
  | [], _ => rfl
  | x :: xs, h => by
      rw [Item.cellsAll] at h
      have behind := h.right
      rw [Item.length_cells] at behind
      rw [Item.countAll, ← List.range'_append_1, List.map_append, Item.visitsAll, List.map_append,
        Holds.map_item around x h.left, Holds.map_itemAll around xs behind]

end

/-! ### Trees -/

/-- The label, the address and the depth of a node. -/
def row? (t : Tree) (n : Nat) : Option (String × String × Nat) := (t.cell? n).map Cell.row

/-- The nodes of a block have its rows. -/
theorem Holds.map_row? {cs : List Cell} (h : t.Holds start cs) :
    (List.range' start cs.length).map t.row? = (cs.map Cell.row).map some := by
  have cells := congrArg (List.map (Option.map Cell.row)) h.map_cell?
  rw [List.map_map, List.map_map] at cells
  rw [List.map_map]
  exact cells

variable {o : Outline}

theorem rest_traverse (o : Outline) :
    (layOut o).traverse.rest = List.range' 0 (Item.countAll o.items) := by
  rw [traverse, Cursor.rest, Cursor.remaining, size_layOut]
  rfl

theorem map_row?_traverse (o : Outline) :
    (layOut o).traverse.rest.map (layOut o).row? = o.visits.map fun v => some v.row := by
  have rows := (holds_layOut o).map_row?
  have visits := Item.map_row_visitsAll [] o.items
  rw [Item.length_cellsAll, Item.map_row_cellsAll] at rows
  rw [List.length_nil] at visits
  rw [rest_traverse, rows, ← visits, List.map_map]
  rfl

/-- The visit that the number of a node counts to is that of its item, as deep as the node. -/
theorem visits_getElem? {n : Nat} {c : Cell} (h : (layOut o).cell? n = some c) :
    ∃ v, o.visits[n]? = some v ∧ v.item = (layOut o).item n ∧ v.around.length = c.depth := by
  have lt : n < Item.countAll o.items := by
    have := cell?_eq_some_iff_lt.mp ⟨c, h⟩
    rwa [size_layOut] at this
  have node : (List.range' 0 (Item.countAll o.items))[n]? = some n := by
    rw [List.getElem?_range' lt, Nat.zero_add, Nat.one_mul]
  have items := congrArg (·[n]?) ((holds_layOut o).map_itemAll [] o.items)
  have rows := congrArg (·[n]?) (map_row?_traverse o)
  simp only [rest_traverse, List.getElem?_map, node, Option.map_some, row?, h] at items rows
  obtain ⟨v, hv, item⟩ := Option.map_eq_some_iff.mp items.symm
  rw [Outline.visits, hv, Option.map_some, Option.some.injEq, Option.some.injEq] at rows
  exact ⟨v, hv, item, (congrArg (·.2.2) rows).symm⟩

/-- A tree steps through the items of its outline as one meets them, each as deep as there are
items around it.  The item of a node is the one met at its number, and the nodes at or below it are
stepped through as one meets the items of that item alone, as many as there are, all of them as
much deeper as the node is. -/
theorem traverse_preorder {o : Outline} {t : Tree} (h : ofOutline o = .ok t) :
    (∃ ns, t.traverse.Yields ns ∧ ns.map t.row? = o.visits.map fun v => some v.row) ∧
      ∀ n c, t.cell? n = some c →
        (∃ v, o.visits[n]? = some v ∧ v.item = t.item n ∧ v.around.length = c.depth) ∧
        ∃ range ns, t.subtree? n = some range ∧ range.Yields ns ∧
          ns.map t.row? = ((t.item n).visits []).map (fun v => some (deeper c.depth v.row)) ∧
          ns.length = (t.item n).count ∧ range.remaining = (t.item n).count := by
  obtain rfl := ofOutline_eq_ok h
  refine ⟨⟨_, Cursor.yields_rest _, map_row?_traverse o⟩, fun n c hc => ⟨visits_getElem? hc, ?_⟩⟩
  obtain ⟨r, x, zs, hr, hx, rfl⟩ := exists_row hc
  have stands := Row.stands_of_below hr
  have remaining : (Cursor.mk n (n + x.count)).remaining = x.count := Nat.add_sub_cancel_left n _
  have subtree : (layOut o).subtree? n = some ⟨n, n + x.count⟩ := by
    rw [subtree?, hc]
    rfl
  rw [Row.item_eq hr hx]
  refine ⟨_, _, subtree, Cursor.yields_rest _, ?_, ?_, remaining⟩
  · have rows := (stands.item hx).map_row?
    rw [Item.length_cells, Item.map_row_cells, Item.listing_eq_map_visits, List.map_map] at rows
    rw [Cursor.rest, remaining]
    exact rows
  · rw [Cursor.length_rest, remaining]

/-- The second of two branches is met fourth, and the end of the first one with two around it. -/
theorem traverse_preorder_branched :
    ofOutline branched = .ok (layOut branched) ∧
      (∃ ns, (layOut branched).traverse.Yields ns ∧ ns.map (layOut branched).row? =
        [some ("A", "", 0), some ("B", "b", 1), some ("C", "c", 2), some ("D", "d", 0)]) ∧
      ∃ c, (layOut branched).cell? 1 = some c ∧ ∃ range ns,
        (layOut branched).subtree? 1 = some range ∧ range.Yields ns ∧ ns.length = 2 ∧
          ns.map (layOut branched).row? = [some ("B", "b", 1), some ("C", "c", 2)] := by
  obtain ⟨⟨ns, yields, rows⟩, nodes⟩ := traverse_preorder ofOutline_branched
  obtain ⟨-, range, ms, subtree, yields', rows', length, -⟩ := nodes 1 _ rfl
  exact ⟨ofOutline_branched, ⟨ns, yields, rows⟩, _, rfl, range, ms, subtree, yields', length, rows'⟩

end Tree

end Sidebar
