import Sidebar.Proofs.Render.Forest
import Sidebar.Proofs.Tree.Build
import Sidebar.Proofs.Tree.Coherent
import Sidebar.Render.Style

/-!
# Render — a node as a tree of its own

The item of a node is an outline by itself, and since everything below the node has a label, that
outline has a tree.  Drawing the node is drawing that tree: depths and last entries, which are
found from the node's place in the first tree and from the top level in the second, come out alike.

* `Row.Below.labelled`: labels are handed down from a row to the rows below it.
* `Tree.draw_eq_drawTree`: a node is drawn as the tree of its item.
-/

namespace Sidebar

/-! ### Labels below an item -/

theorem NoneAt.of_mem_below {α : Type} {below : α → List α} {bad : α → Prop} {a b : α}
    (h : NoneAt below bad a) (hb : b ∈ below a) : NoneAt below bad b := by
  intro p c hc
  obtain ⟨i, hi⟩ := List.getElem?_of_mem hb
  exact h (i :: p) c (follow_cons_eq_some.mpr ⟨b, hi, hc⟩)

/-- The item and everything below it have labels. -/
def Item.Labelled (x : Item) : Prop := NoneAt Item.children Item.Unlabelled x

theorem Outline.labelled_iff {o : Outline} : o.Labelled ↔ ∀ x ∈ o.items, x.Labelled := by
  constructor
  · intro h x hx p y hy
    obtain ⟨i, hi⟩ := List.getElem?_of_mem hx
    exact h (i :: p) y (Option.bind_eq_some_iff.mpr ⟨x, hi, hy⟩)
  · intro h p y hy
    match p with
    | i :: p =>
        obtain ⟨x, hx, hy⟩ := Option.bind_eq_some_iff.mp hy
        exact h x (List.mem_of_getElem? hx) p y hy

namespace Row

variable {a r : Row} {n : Nat} {x : Item} {zs : List Item}

theorem At.mem (h : r.At n x zs) : x ∈ r.items := by
  obtain ⟨ys, e, -⟩ := h
  rw [e]
  exact List.mem_append_right ys List.mem_cons_self

/-- Where the items of a row are labelled throughout, so are those of every row below. -/
theorem Below.labelled (h : a.Below r) (ha : ∀ x ∈ a.items, x.Labelled) :
    ∀ x ∈ r.items, x.Labelled := by
  induction h with
  | refl => exact ha
  | under _ hx ih => exact fun y hy => (ih _ hx.mem).of_mem_below hy

end Row

namespace Tree

variable {o : Outline} {t : Tree} {n : Nat}

/-- The item of a node has a tree. -/
theorem ofOutline_item (h : ofOutline o = .ok t) (hn : n < t.size) :
    ofOutline ⟨[t.item n]⟩ = .ok (layOut ⟨[t.item n]⟩) := by
  have labelled : o.Labelled := labelled_of_ofOutline h
  obtain rfl := ofOutline_eq_ok h
  obtain ⟨r, x, zs, hr, hx⟩ := Row.exists_at_of_lt hn
  refine ofOutline_of_labelled (Outline.labelled_iff.mpr fun y hy => ?_)
  obtain rfl := List.mem_singleton.mp hy
  rw [Row.item_eq hr hx]
  exact hr.labelled (Outline.labelled_iff.mp labelled) x hx.mem

/-- The item of a node has a tree, and every renderer hands the entries of that tree to a sink
where it is asked for the node.  So both are drawn alike in every style. -/
theorem draw_eq_drawTree (h : ofOutline o = .ok t) (hn : n < t.size) :
    ∃ u, ofOutline ⟨[t.item n]⟩ = .ok u ∧ ∀ r : Renderer,
      r.entries t n = r.treeEntries u ∧ ∀ style, r.draw style t n = r.drawTree style u := by
  refine ⟨_, ofOutline_item h hn, fun r => ?_⟩
  obtain rfl := ofOutline_eq_ok h
  have entries : r.entries (layOut o) n = r.treeEntries (layOut ⟨[(layOut o).item n]⟩) := by
    rw [r.entries_layOut hn, r.treeEntries_layOut]
  refine ⟨entries, fun style => ?_⟩
  rw [r.draw_eq, r.drawTree_eq, entries]

/-- A node that is not the last of its level in the tree. -/
theorem draw_eq_drawTree_branched :
    ofOutline branched = .ok (layOut branched) ∧ 0 < (layOut branched).size ∧
      ∃ u, ofOutline ⟨[(layOut branched).item 0]⟩ = .ok u ∧
        Renderer.standard.drawTree .tree u = "└── A\n    └── B (b)\n        └── C (c)\n" := by
  have drawn : Renderer.standard.draw .tree (layOut branched) 0 =
      "└── A\n    └── B (b)\n        └── C (c)\n" := by
    decide +kernel
  obtain ⟨u, hu, same⟩ := draw_eq_drawTree (n := 0) ofOutline_branched (by decide)
  exact ⟨ofOutline_branched, by decide, u, hu, ((same Renderer.standard).2 .tree).symm.trans drawn⟩

end Tree

end Sidebar
