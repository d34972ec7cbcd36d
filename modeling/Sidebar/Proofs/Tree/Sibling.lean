import Sidebar.Proofs.Tree.Coherent

/-!
# Tree — siblings

The nodes below one parent, or at the top level, are those of a row.  So whether one of them is
followed by another one is seen in the row, even if only some nodes of the tree are looked at, as
long as these are with a node all the later ones of its row.

* `Tree.Followed`: a node has a sibling after it among some nodes.
* `Row.mem_nodes_iff`: the nodes of a row are those with its parent.
* `Row.followed_iff`: a node is followed unless its item is the last of the row.
* `Row.not_followed`: a node is not followed in its own subtree.
-/

namespace Sidebar

namespace Tree

/-- One of the nodes `ns` comes after `n` and has the same parent, or none if `n` has none. -/
def Followed (t : Tree) (ns : List Nat) (n : Nat) : Prop :=
  ∃ m ∈ ns, n < m ∧ t.parent? m = t.parent? n

instance (t : Tree) (ns : List Nat) (n : Nat) : Decidable (t.Followed ns n) :=
  inferInstanceAs (Decidable (∃ m ∈ ns, n < m ∧ t.parent? m = t.parent? n))

end Tree

namespace Row

variable {o : Outline} {t : Tree} {r : Row} {n m : Nat} {x y : Item} {zs ws : List Item}
  {ns : List Nat}

/-- The item after `x` begins where the subtree of `x` ends. -/
theorem At.next (h : r.At n x (y :: zs)) : r.At (n + x.count) y zs := by
  obtain ⟨ys, e, rfl⟩ := h
  refine ⟨ys ++ [x], by rw [e, List.append_assoc]; rfl, ?_⟩
  rw [Item.countAll_append, Item.countAll, Item.countAll, Nat.add_zero, Nat.add_assoc]

/-- A later node of the row is not in the subtree of an earlier one. -/
theorem At.stop_le_of_lt (hx : r.At n x zs) (hy : r.At m y ws) (lt : n < m) :
    n + x.count ≤ m := by
  obtain ⟨xs, ex, rfl⟩ := hx
  obtain ⟨ys, ey, rfl⟩ := hy
  rcases List.append_eq_append_iff.mp (ex.symm.trans ey) with ⟨l, rfl, e⟩ | ⟨l, rfl, -⟩
  · -- the items of the row before `y` are those before `x`, and `l`
    rw [Item.countAll_append] at lt ⊢
    cases l with
    | nil =>
        rw [Item.countAll, Nat.add_zero] at lt
        exact absurd lt (Nat.lt_irrefl _)
    | cons z l =>
        obtain ⟨rfl, -⟩ := List.cons.inj e
        rw [Item.countAll]
        omega
  · rw [Item.countAll_append] at lt
    omega

/-- The nodes of a row are those with its parent. -/
theorem mem_nodes_iff (h : (top o).Below r) :
    m ∈ r.nodes ↔ m < (Tree.layOut o).size ∧ (Tree.layOut o).parent? m = r.parent := by
  cases h with
  | refl => exact Tree.atTop_iff.symm
  | under h hx =>
      have children := Tree.mem_children_iff (m := m) ((stands_of_below h).cell? hx)
      refine children.trans ⟨fun parent => ⟨?_, parent⟩, And.right⟩
      obtain ⟨c, hc, -⟩ := Option.bind_eq_some_iff.mp parent
      exact Tree.cell?_eq_some_iff_lt.mp ⟨c, hc⟩

/-- What follows a node is a later node of its row, behind the node's subtree. -/
theorem exists_at_of_followed (h : (top o).Below r) (hx : r.At n x zs)
    (nodes : ∀ m ∈ ns, m < (Tree.layOut o).size) (followed : (Tree.layOut o).Followed ns n) :
    ∃ m ∈ ns, n + x.count ≤ m ∧ ∃ y ws, r.At m y ws := by
  obtain ⟨m, hm, lt, parent⟩ := followed
  rw [parent?_eq h hx] at parent
  obtain ⟨y, ws, hy⟩ := mem_nodes.mp ((mem_nodes_iff h).mpr ⟨nodes m hm, parent⟩)
  exact ⟨m, hm, hx.stop_le_of_lt hy lt, y, ws, hy⟩

/-- Among nodes of the tree that are with `n` all the later ones of its row, `n` is followed unless
its item is the last of the row. -/
theorem followed_iff (h : (top o).Below r) (hx : r.At n x zs)
    (nodes : ∀ m ∈ ns, m < (Tree.layOut o).size)
    (later : ∀ m y ws, r.At m y ws → n < m → m ∈ ns) :
    (Tree.layOut o).Followed ns n ↔ zs ≠ [] := by
  constructor
  · intro followed
    obtain ⟨m, -, le, y, ws, hy⟩ := exists_at_of_followed h hx nodes followed
    have inside : m < r.stop := Nat.lt_of_lt_of_le (Nat.lt_add_of_pos_right y.count_pos) hy.stop_le
    exact hx.lt_stop_iff.mp (Nat.lt_of_le_of_lt le inside)
  · intro some
    obtain ⟨y, ws, rfl⟩ := List.exists_cons_of_ne_nil some
    have lt : n < n + x.count := Nat.lt_add_of_pos_right x.count_pos
    refine ⟨n + x.count, later _ y ws hx.next lt, lt, ?_⟩
    rw [parent?_eq h hx.next, parent?_eq h hx]

/-- Among the nodes of its own subtree a node is not followed. -/
theorem not_followed (h : (top o).Below r) (hx : r.At n x zs)
    (nodes : ∀ m ∈ ns, m < n + x.count) : ¬ (Tree.layOut o).Followed ns n := by
  intro followed
  have size : n + x.count ≤ (Tree.layOut o).size :=
    Tree.stop_le_size ((stands_of_below h).cell? hx)
  obtain ⟨m, hm, le, -⟩ := exists_at_of_followed h hx
    (fun m hm => Nat.lt_of_lt_of_le (nodes m hm) size) followed
  exact absurd (nodes m hm) (Nat.not_lt.mpr le)

end Row

end Sidebar
