import Sidebar.Proofs.Tree.Sibling

/-!
# Tree — neighbours

A tree keeps a list of the children of each node, but no link from a child to the next one: that one
is found where the child's subtree ends, unless the parent's subtree ends there too.  Going from the
first child to its sibling and so on one meets the children in the order of the list, and the same
holds at the top level.

* `Tree.SiblingsFrom`: the nodes met from a start, sibling by sibling.
* `Tree.Linked`: the siblings and the parents form the tree that the lists of children form.
* `Row.siblingsFrom_nodes`: from its first node on one meets a row.
* `Tree.ofOutline_linked`: every tree that is built is linked.
-/

namespace Sidebar

namespace Tree

/-- The nodes met from a start, each the next sibling of the one before it, up to one that has
none. -/
inductive SiblingsFrom (t : Tree) : Option Nat → List Nat → Prop where
  | done : SiblingsFrom t none []
  | next {n : Nat} {ns : List Nat} (h : SiblingsFrom t (t.nextSibling? n) ns) :
      SiblingsFrom t (some n) (n :: ns)

/-- The siblings and the parents of the nodes form the same tree as the lists of children. -/
structure Linked (t : Tree) : Prop where
  leaf : ∀ n c, t.cell? n = some c → (c.isLeaf = true ↔ c.stop = n + 1)
  first : ∀ n c, t.cell? n = some c → c.isLeaf = false → (t.children n).head? = some (n + 1)
  siblings : ∀ n < t.size, ∀ ns, t.SiblingsFrom (t.children n).head? ns ↔ ns = t.children n
  top : ∀ ns, t.SiblingsFrom (if t.isEmpty then none else some 0) ns ↔ ns = t.roots
  child : ∀ n c m, t.cell? n = some c → m ∈ t.children n →
    t.parent? m = some n ∧ ∃ d, t.cell? m = some d ∧ d.depth = c.depth + 1
  next : ∀ n c m, t.cell? n = some c → t.nextSibling? n = some m →
    t.parent? m = t.parent? n ∧ ∃ d, t.cell? m = some d ∧ d.depth = c.depth

variable {t : Tree} {start : Option Nat} {ns ms : List Nat}

/-- From one start there is one way. -/
theorem SiblingsFrom.unique (h : t.SiblingsFrom start ns) (h' : t.SiblingsFrom start ms) :
    ms = ns := by
  induction h generalizing ms with
  | done => cases h'; rfl
  | next _ ih =>
      cases h' with
      | next h' => rw [ih h']

theorem SiblingsFrom.iff_eq (h : t.SiblingsFrom start ns) :
    t.SiblingsFrom start ms ↔ ms = ns :=
  ⟨h.unique, fun e => e ▸ h⟩

end Tree

namespace Row

variable {o : Outline} {r : Row} {n m : Nat} {x : Item} {zs : List Item}

/-- From an item one meets those after it in its row. -/
theorem siblingsFrom (h : (top o).Below r) (hx : r.At n x zs) :
    (Tree.layOut o).SiblingsFrom (some n) (Item.starts n (x :: zs)) := by
  induction zs generalizing n x with
  | nil =>
      refine .next ?_
      rw [nextSibling?_eq h hx, if_pos rfl]
      exact .done
  | cons y zs ih =>
      refine .next ?_
      rw [nextSibling?_eq h hx, if_neg (List.cons_ne_nil y zs)]
      exact ih hx.next

/-- From its first node on one meets the nodes of a row. -/
theorem siblingsFrom_nodes (h : (top o).Below r) :
    (Tree.layOut o).SiblingsFrom r.nodes.head? r.nodes := by
  rw [nodes]
  cases hi : r.items with
  | nil => exact .done
  | cons x zs => exact siblingsFrom h ⟨[], hi, rfl⟩

/-- A row begins with its first item, if it has any. -/
theorem head?_nodes (r : Row) :
    r.nodes.head? = if r.items.isEmpty then none else some r.start := by
  rw [nodes]
  cases r.items <;> rfl

/-- The next sibling of an item is in its row. -/
theorem of_nextSibling? (h : (top o).Below r) (hx : r.At n x zs)
    (next : (Tree.layOut o).nextSibling? n = some m) : ∃ y ws, r.At m y ws := by
  rw [nextSibling?_eq h hx] at next
  cases zs with
  | nil => exact nomatch next
  | cons y ws =>
      obtain rfl := Option.some.inj next
      exact ⟨y, ws, hx.next⟩

end Row

namespace Tree

variable {o : Outline} {n m : Nat} {c : Cell}

theorem isLeaf_iff (h : (layOut o).cell? n = some c) : c.isLeaf = true ↔ c.stop = n + 1 := by
  obtain ⟨r, ⟨text, url, children⟩, zs, -, -, rfl⟩ := exists_row h
  rw [Cell.isLeaf, Row.isEmpty_nodes, Row.under, Item.count]
  cases children with
  | nil => exact iff_of_true rfl rfl
  | cons y ys =>
      have := y.count_pos
      simp only [List.isEmpty_cons, Bool.false_eq_true, Item.countAll, false_iff]
      omega

theorem isEmpty_layOut (o : Outline) : (layOut o).isEmpty = o.items.isEmpty := by
  obtain ⟨items⟩ := o
  match items with
  | [] => rfl
  | ⟨text, url, children⟩ :: xs => rw [isEmpty, layOut, Item.cellsAll, Item.cells]; rfl

theorem children_eq (h : (layOut o).cell? n = some c) : (layOut o).children n = c.children := by
  rw [children, h]
  rfl

/-- Whatever is laid out is linked. -/
theorem linked_layOut (o : Outline) : (layOut o).Linked where
  leaf _ _ h := isLeaf_iff h
  first n c h leaf := by
    rw [children_eq h]
    obtain ⟨r, x, zs, -, -, rfl⟩ := exists_row h
    rw [Cell.isLeaf, Row.isEmpty_nodes] at leaf
    rw [Row.head?_nodes, leaf]
    rfl
  siblings n hn ns := by
    obtain ⟨c, h⟩ := cell?_eq_some_iff_lt.mpr hn
    rw [children_eq h]
    obtain ⟨r, x, zs, hr, hx, rfl⟩ := exists_row h
    exact (Row.siblingsFrom_nodes (hr.under hx)).iff_eq
  top ns := by
    have start : (if (layOut o).isEmpty then none else some 0) = (Row.top o).nodes.head? := by
      rw [Row.head?_nodes, isEmpty_layOut]
      rfl
    rw [start]
    exact (Row.siblingsFrom_nodes .refl).iff_eq
  child n c m h hm := by
    rw [children_eq h] at hm
    obtain ⟨r, x, zs, hr, hx, rfl⟩ := exists_row h
    obtain ⟨y, ws, hy⟩ := Row.mem_nodes.mp hm
    have below := hr.under hx
    exact ⟨Row.parent?_eq below hy, _, (Row.stands_of_below below).cell? hy, rfl⟩
  next n c m h hm := by
    obtain ⟨r, x, zs, hr, hx, rfl⟩ := exists_row h
    obtain ⟨y, ws, hy⟩ := Row.of_nextSibling? hr hx hm
    refine ⟨?_, _, (Row.stands_of_below hr).cell? hy, rfl⟩
    rw [Row.parent?_eq hr hy, Row.parent?_eq hr hx]

/-- Every tree that is built is linked. -/
theorem ofOutline_linked {o : Outline} {t : Tree} (h : ofOutline o = .ok t) : t.Linked :=
  ofOutline_eq_ok h ▸ linked_layOut o

/-- The subtree of node 2 ends where the second branch begins, with the one of its parent. -/
theorem ofOutline_linked_branched :
    ofOutline branched = .ok (layOut branched) ∧ (layOut branched).Linked ∧
      (layOut branched).SiblingsFrom (some 0) [0, 3] ∧
      (layOut branched).SiblingsFrom ((layOut branched).children 1).head? [2] := by
  have linked : (layOut branched).Linked := ofOutline_linked ofOutline_branched
  exact ⟨ofOutline_branched, linked, (linked.top [0, 3]).mpr rfl,
    (linked.siblings 1 (by decide) [2]).mpr rfl⟩

end Tree

end Sidebar
