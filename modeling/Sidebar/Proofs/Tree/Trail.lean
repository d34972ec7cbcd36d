import Mathlib.Data.List.Chain
import Sidebar.Proofs.Tree.Coherent

/-!
# Tree — the way up

From a node one climbs to its parent, to the parent of that one and so on.  Every parent comes
before its children, so the climb ends at the top level, and turned around it is the path that leads
down to the node.

* `Climbs`: the nodes above a node, from its parent up.
* `PathTo`: the nodes from the top level down to a node.
* `climbs_ancestors`, `pathTo_ancestors`: what the ancestors of a node are.
-/

namespace Sidebar.Tree

/-- The nodes above a node, each the parent of the one before it, up to the top level. -/
inductive Climbs (t : Tree) : Nat → List Nat → Prop where
  | top {n : Nat} (h : t.AtTop n) : Climbs t n []
  | up {n p : Nat} {ms : List Nat} (h : t.parent? n = some p) (rest : Climbs t p ms) :
      Climbs t n (p :: ms)

/-- Nodes from the top level down to a node, each the parent of the next. -/
structure PathTo (t : Tree) (n : Nat) (path : List Nat) : Prop where
  top : ∀ m ∈ path.head?, t.AtTop m
  step : path.IsChain fun p m => t.parent? m = some p
  last : path.getLast? = some n

variable {t : Tree} {o : Outline} {n p k : Nat} {ms path : List Nat}

theorem Coherent.parent?_lt (h : t.Coherent) (hp : t.parent? n = some p) : p < n := by
  obtain ⟨c, hc, hp⟩ := Option.bind_eq_some_iff.mp hp
  exact h.parent n c p hc hp

theorem lt_size_of_parent? (hp : t.parent? n = some p) : n < t.size := by
  obtain ⟨c, hc, -⟩ := Option.bind_eq_some_iff.mp hp
  exact cell?_eq_some_iff_lt.mp ⟨c, hc⟩

/-- As many steps as there are nodes before it are enough for a climb. -/
theorem Coherent.climbs_ancestorsUpTo (h : t.Coherent) (le : n ≤ k) (lt : n < t.size) :
    t.Climbs n (t.ancestorsUpTo k n) := by
  induction k generalizing n with
  | zero =>
      refine .top ⟨lt, Option.eq_none_iff_forall_ne_some.mpr fun p hp => ?_⟩
      exact Nat.not_lt_zero p (Nat.lt_of_lt_of_le (h.parent?_lt hp) le)
  | succ k ih =>
      rw [ancestorsUpTo]
      cases hp : t.parent? n with
      | none => exact .top ⟨lt, hp⟩
      | some p =>
          have before : p < n := h.parent?_lt hp
          exact .up hp (ih (Nat.le_of_lt_succ (Nat.lt_of_lt_of_le before le))
            (Nat.lt_trans before lt))

theorem climbs_ancestors (hn : n < (layOut o).size) :
    (layOut o).Climbs n ((layOut o).ancestors n) :=
  (coherent_layOut o).climbs_ancestorsUpTo (Nat.le_of_lt hn) hn

theorem Climbs.lt_size (h : t.Climbs n ms) : ∀ m ∈ n :: ms, m < t.size := by
  induction h with
  | top h => exact List.forall_mem_cons.mpr ⟨h.1, nofun⟩
  | up h _ ih => exact List.forall_mem_cons.mpr ⟨lt_size_of_parent? h, ih⟩

/-- A path goes on from a node to each of its children. -/
theorem PathTo.snoc (h : t.PathTo p path) (hn : t.parent? n = some p) :
    t.PathTo n (path ++ [n]) := by
  obtain ⟨top, step, last⟩ := h
  refine ⟨?_, List.isChain_append.mpr ⟨step, List.isChain_singleton n, ?_⟩, List.getLast?_concat⟩
  · cases path with
    | nil => exact nomatch last
    | cons m path => exact top
  · rintro q hq m hm
    obtain rfl := Option.some.inj hm
    obtain rfl := Option.some.inj (last.symm.trans hq)
    exact hn

/-- A climb turned around is a path. -/
theorem Climbs.pathTo (h : t.Climbs n ms) : t.PathTo n (ms.reverse ++ [n]) := by
  induction h with
  | @top n h =>
      refine ⟨fun m hm => ?_, List.isChain_singleton n, rfl⟩
      obtain rfl := Option.some.inj hm
      exact h
  | up h _ ih =>
      rw [List.reverse_cons]
      exact ih.snoc h

theorem pathTo_ancestors (hn : n < (layOut o).size) :
    (layOut o).PathTo n (((layOut o).ancestors n).reverse ++ [n]) :=
  (climbs_ancestors hn).pathTo

end Sidebar.Tree
