import Mathlib.Data.List.Basic
import Sidebar.Proofs.Render.Forest
import Sidebar.Proofs.Tree.Coherent
import Sidebar.Render.Walk

/-!
# Render — what is shown

A rendering goes through nodes in reading order, all of a tree or those at or below a node, and
shows the ones on the levels that are not cut off.  Nothing else is left out, nothing comes twice,
and a sink that does not fail is told the end once.

* `Row.Stands.flatMap_starts`: the subtrees of a row follow each other without a gap.
* `Renderer.Shows`: some entries are the shown nodes of a range.
* `Sink.Steady.run_deliver`: what a sink that does not fail is handed.
* `Renderer.shows_of_ofOutline`: every rendering shows what it should.
-/

namespace Sidebar

/-! ### Sinks that do not fail -/

namespace Sink

variable {ε σ : Type} {sink : Sink (ExceptT ε (StateM σ))}

/-- The state of a sink after a mark. -/
def after (sink : Sink (ExceptT ε (StateM σ))) (s : σ) : Mark → σ
  | .entry e => ((sink.entry e).run.run s).2
  | .finish  => (sink.finish.run.run s).2

/-- The sink takes whatever it is handed. -/
structure Steady (sink : Sink (ExceptT ε (StateM σ))) : Prop where
  entry : ∀ e s, ((sink.entry e).run.run s).1 = .ok ()
  finish : ∀ s, (sink.finish.run.run s).1 = .ok ()

theorem run_bind_of_ok {x y : ExceptT ε (StateM σ) Unit} {s : σ} (h : (x.run.run s).1 = .ok ()) :
    (x >>= fun _ => y).run.run s = y.run.run (x.run.run s).2 := by
  rcases e : x.run.run s with ⟨r, s'⟩
  rw [e] at h
  obtain rfl : r = .ok () := h
  rw [ExceptT.run_bind, StateT.run_bind, e]
  rfl

/-- A sink that takes everything is handed the entries in their order, and then the end. -/
theorem Steady.run_deliver (h : sink.Steady) (es : List Entry) (s : σ) :
    (sink.deliver es).run.run s = (.ok (), (Mark.delivery es).foldl sink.after s) := by
  induction es generalizing s with
  | nil => exact Prod.ext (h.finish s) rfl
  | cons e es ih =>
      rw [deliver_cons, run_bind_of_ok (h.entry e s), ih]
      rfl

theorem recorder_steady : (recorder none).Steady where
  entry _ _ := rfl
  finish _ := rfl

end Sink

/-! ### The nodes of a row -/

namespace Row

variable {t : Tree} {o : Outline} {a r s : Row} {n m : Nat} {x : Item} {zs : List Item}

theorem Below.depth_le (h : a.Below r) : a.depth ≤ r.depth := by
  induction h with
  | refl => exact Nat.le_refl _
  | under _ _ ih => exact Nat.le_succ_of_le ih

theorem Stands.subtree? (h : r.Stands t) (hx : r.At n x zs) :
    t.subtree? n = some ⟨n, n + x.count⟩ := by
  rw [Tree.subtree?, h.cell? hx]
  rfl

/-- The nodes at or below the nodes of a row are those of the row's range. -/
theorem Stands.flatMap_starts (h : r.Stands t) (xs ys : List Item) (e : r.items = ys ++ xs) :
    (Item.starts (r.start + Item.countAll ys) xs).flatMap
        (fun n => ((t.subtree? n).map Cursor.rest).getD []) =
      List.range' (r.start + Item.countAll ys) (Item.countAll xs) := by
  induction xs generalizing ys with
  | nil => rfl
  | cons x xs ih =>
      have hx : r.At (r.start + Item.countAll ys) x xs := ⟨ys, e, rfl⟩
      -- the subtree of `x` ends where the next item begins
      have tail := ih (ys ++ [x]) (by rw [e, List.append_assoc]; rfl)
      rw [Item.countAll_append, Item.countAll, Item.countAll, Nat.add_zero, ← Nat.add_assoc] at tail
      rw [Item.starts, List.flatMap_cons, h.subtree? hx, tail, Item.countAll,
        ← List.range'_append_1]
      simp only [Option.map_some, Option.getD_some, Cursor.rest_add]

end Row

namespace Tree

variable {o : Outline} {t : Tree} {n m p base : Nat} {c d : Cell}

/-- The subtrees of the top-level nodes follow each other through the whole tree. -/
theorem flatMap_roots (o : Outline) :
    (layOut o).roots.flatMap (fun n => (((layOut o).subtree? n).map Cursor.rest).getD []) =
      (layOut o).traverse.rest := by
  have rows := (Row.stands_top o).flatMap_starts o.items [] rfl
  have size : (layOut o).traverse.rest = List.range' 0 (Item.countAll o.items) := by
    rw [traverse, Cursor.rest, Cursor.remaining, size_layOut]
    rfl
  rw [size]
  exact rows

/-- Nothing in a subtree is above its first node. -/
theorem depth_le_of_mem_subtree (hn : (layOut o).cell? n = some c)
    (hm : m ∈ (Cursor.mk n c.stop).rest) (hd : (layOut o).cell? m = some d) :
    c.depth ≤ d.depth := by
  obtain ⟨r, x, zs, hr, hx, rfl⟩ := exists_row hn
  have ⟨le, lt⟩ := List.mem_range'_1.mp hm
  have inside : m < n + x.count :=
    Nat.lt_of_lt_of_eq lt (Nat.add_sub_cancel' (Nat.le_add_right n x.count))
  obtain ⟨s, y, ws, hs, hy⟩ := Row.exists_at_item x hx le inside
  obtain rfl := Option.some.inj (hd.symm.trans ((Row.stands_of_below (hr.trans hs)).cell? hy))
  exact hs.depth_le

end Tree

/-! ### The nodes that are shown -/

namespace Renderer

variable {r : Renderer} {t : Tree} {o : Outline} {base n d : Nat} {b : Bool} {c : Cell}
  {range : Cursor}

/-- The level is one of those drawn. -/
def reaches (r : Renderer) (depth : Nat) : Bool :=
  r.maxDepth.all fun levels => decide (depth < levels)

/-- The node is on a level that is drawn, counted from a base. -/
def shows (r : Renderer) (t : Tree) (base n : Nat) : Bool :=
  (t.cell? n).any fun c => r.reaches (c.depth - base)

/-- The nodes of a range that are on the levels drawn, counted from a base. -/
def shown (r : Renderer) (t : Tree) (base : Nat) (range : Cursor) : List Nat :=
  range.rest.filter (r.shows t base)

/-- What is drawn of a node: its label, its link and its depth, counted from a base. -/
def row? (r : Renderer) (t : Tree) (base n : Nat) : Option (String × String × Nat) :=
  (t.cell? n).map fun c => (c.text, Link.resolve r.linkBase c.url, c.depth - base)

/-- The entries are the shown nodes of a range in their order.  Depths count from the base, which
no node of the range is above, and with a node its parent is shown, if that is in the range. -/
structure Shows (r : Renderer) (t : Tree) (base : Nat) (range : Cursor) (es : List Entry) :
    Prop where
  rows : (r.shown t base range).map (r.row? t base) = es.map fun e => some e.row
  depth : ∀ n ∈ range.rest, ∀ c, t.cell? n = some c → base ≤ c.depth
  parent : ∀ n ∈ r.shown t base range, ∀ p ∈ range.rest, t.parent? n = some p →
    p ∈ r.shown t base range

theorem hides_eq (r : Renderer) (d : Nat) : r.hides d = !r.reaches d := by
  rw [hides, reaches]
  cases r.maxDepth with
  | none => rfl
  | some levels => simp only [Option.any_some, Option.all_some, ← decide_not, Nat.not_lt]

theorem shows_eq (hc : t.cell? n = some c) : r.shows t base n = r.reaches (c.depth - base) := by
  rw [shows, hc, Option.any_some]

/-- A level above one that is drawn is drawn. -/
theorem reaches_of_le {k : Nat} (h : r.reaches d = true) (le : k ≤ d) : r.reaches k = true := by
  rw [reaches] at h ⊢
  cases e : r.maxDepth with
  | none => rfl
  | some levels =>
      rw [e, Option.all_some, decide_eq_true_eq] at h
      exact decide_eq_true (Nat.lt_of_le_of_lt le h)

theorem entry?_of_not_shows (h : r.shows t base n = false) : r.entry? t base b n = none := by
  unfold entry?
  cases hc : t.cell? n with
  | none => rfl
  | some c =>
      rw [shows_eq hc] at h
      rw [Option.bind_some]
      exact if_pos (by rw [hides_eq, h]; rfl)

theorem entry?_of_shows (h : r.shows t base n = true) :
    ∃ e, r.entry? t base b n = some e ∧ r.row? t base n = some e.row := by
  obtain ⟨c, hc, reached⟩ := (Option.any_eq_true _ _).mp h
  have drawn : ¬ r.hides (c.depth - base) = true := by rw [hides_eq, reached]; decide
  rw [row?, entry?, hc, Option.map_some, Option.bind_some]
  exact ⟨_, if_neg drawn, rfl⟩

/-- The entries found at some nodes are those of the nodes that are shown. -/
theorem map_row?_filter (r : Renderer) (t : Tree) (base : Nat) (b : Bool) (ns : List Nat) :
    (ns.filter (r.shows t base)).map (r.row? t base) =
      (ns.filterMap (r.entry? t base b)).map fun e => some e.row := by
  induction ns with
  | nil => rfl
  | cons n ns ih =>
      cases h : r.shows t base n with
      | false =>
          rw [List.filter_cons_of_neg (by rw [h]; decide),
            List.filterMap_cons_none (entry?_of_not_shows h), ih]
      | true =>
          obtain ⟨e, he, row⟩ := entry?_of_shows (b := b) h
          rw [List.filter_cons_of_pos h, List.filterMap_cons_some he, List.map_cons, List.map_cons,
            ih, row]

/-- The entries of a node and what is below it are the shown nodes of its range. -/
theorem map_row_subtreeEntries (r : Renderer) (b : Bool) (hc : t.cell? n = some c) :
    (r.subtreeEntries t b n).map (fun e => some e.row) =
      (r.shown t c.depth ⟨n, c.stop⟩).map (r.row? t c.depth) := by
  rw [subtreeEntries, hc, shown, map_row?_filter]

/-- The entries of a tree are its shown nodes. -/
theorem map_row_treeEntries (r : Renderer) (o : Outline) :
    (r.treeEntries (Tree.layOut o)).map (fun e => some e.row) =
      (r.shown (Tree.layOut o) 0 (Tree.layOut o).traverse).map (r.row? (Tree.layOut o) 0) := by
  -- root by root: depths count from 0 in the tree and below each root
  rw [shown, ← Tree.flatMap_roots, List.filter_flatMap, List.map_flatMap, treeEntries,
    List.map_flatMap]
  refine List.flatMap_congr fun n hn => ?_
  obtain ⟨c, hc⟩ := Tree.cell?_eq_some_iff_lt.mpr (Tree.atTop_iff.mpr hn).1
  rw [map_row_subtreeEntries r _ hc, Tree.depth_of_mem_roots hn hc, shown, Tree.subtree?, hc]
  rfl

/-- With a node its parent is shown. -/
theorem parent_mem_shown {p : Nat} (h : n ∈ r.shown (Tree.layOut o) base range)
    (hp : p ∈ range.rest) (parent : (Tree.layOut o).parent? n = some p) :
    p ∈ r.shown (Tree.layOut o) base range := by
  obtain ⟨-, shows⟩ := List.mem_filter.mp h
  obtain ⟨c, hc, -⟩ := Option.bind_eq_some_iff.mp parent
  obtain ⟨s, x, zs, y, ws, hs, hx, hy⟩ := Tree.exists_under_of_parent? parent
  have hq := (Row.stands_of_below hs).cell? hx
  have depth := Tree.depth_of_parent? parent hc hq
  rw [shows_eq hc] at shows
  refine List.mem_filter.mpr ⟨hp, ?_⟩
  rw [shows_eq hq]
  exact reaches_of_le shows (by omega)

/-- A rendering shows the nodes of the tree, or those at or below a node, that are on the levels
drawn.  Walking through the tree, or through a node of it, a sink that does not fail is handed each
of these entries once, in their order, and after the last one it is told the end, once. -/
theorem shows_of_ofOutline {o : Outline} {t : Tree} (h : Tree.ofOutline o = .ok t) (r : Renderer) :
    r.Shows t 0 t.traverse (r.treeEntries t) ∧
      (∀ n c range, t.cell? n = some c → t.subtree? n = some range →
        r.Shows t c.depth range (r.entries t n)) ∧
      ∀ {ε σ : Type} (sink : Sink (ExceptT ε (StateM σ))), sink.Steady → ∀ s,
        (r.feedTree t sink).run.run s =
            (.ok (), ((r.treeEntries t).map Mark.entry ++ [Mark.finish]).foldl sink.after s) ∧
          ∀ n < t.size, (r.feed t sink n).run.run s =
            (.ok (), ((r.entries t n).map Mark.entry ++ [Mark.finish]).foldl sink.after s) := by
  obtain rfl := Tree.ofOutline_eq_ok h
  refine ⟨⟨(map_row_treeEntries r o).symm, ?_, ?_⟩, ?_, fun sink steady s => ⟨?_, ?_⟩⟩
  · exact fun n _ c _ => Nat.zero_le _
  · exact fun n hn p hp parent => parent_mem_shown hn hp parent
  · intro n c range hc hr
    rw [Tree.subtree?, hc] at hr
    obtain rfl := Option.some.inj hr
    exact ⟨(map_row_subtreeEntries r true hc).symm,
      fun m hm d hd => Tree.depth_le_of_mem_subtree hc hm hd,
      fun m hm p hp parent => parent_mem_shown hm hp parent⟩
  · rw [r.feedTree_eq]
    exact steady.run_deliver _ s
  · intro n _
    rw [r.feed_eq]
    exact steady.run_deliver _ s

/-- Two levels of a tree, a node with what is below it, and no level at all: what is shown, and what
a recorder has kept after the walk. -/
theorem shows_of_ofOutline_branched :
    Tree.ofOutline Tree.branched = .ok (Tree.layOut Tree.branched) ∧
      1 < (Tree.layOut Tree.branched).size ∧
      (Renderer.mk (some 2) none 2).Shows (Tree.layOut Tree.branched) 0 ⟨0, 4⟩
        [⟨"A", "", 0, false, false⟩, ⟨"B", "b", 1, true, true⟩, ⟨"D", "d", 0, true, true⟩] ∧
      ((Renderer.mk (some 2) none 2).feedTree (Tree.layOut Tree.branched)
          (Sink.recorder none)).run.run ⟨[], 0⟩ =
        (.ok (), ⟨[⟨"A", "", 0, false, false⟩, ⟨"B", "b", 1, true, true⟩,
          ⟨"D", "d", 0, true, true⟩], 1⟩) ∧
      Renderer.standard.Shows (Tree.layOut Tree.branched) 1 ⟨1, 3⟩
        [⟨"B", "b", 0, false, true⟩, ⟨"C", "c", 1, true, true⟩] ∧
      (Renderer.standard.feed (Tree.layOut Tree.branched) (Sink.recorder none) 1).run.run ⟨[], 0⟩ =
        (.ok (), ⟨[⟨"B", "b", 0, false, true⟩, ⟨"C", "c", 1, true, true⟩], 1⟩) ∧
      ((Renderer.mk (some 0) none 2).feedTree (Tree.layOut Tree.branched)
          (Sink.recorder none)).run.run ⟨[], 0⟩ = (.ok (), ⟨[], 1⟩) := by
  obtain ⟨two, -, handed⟩ := shows_of_ofOutline Tree.ofOutline_branched ⟨some 2, none, 2⟩
  obtain ⟨-, node, below⟩ := shows_of_ofOutline Tree.ofOutline_branched standard
  obtain ⟨-, -, nothing⟩ := shows_of_ofOutline Tree.ofOutline_branched ⟨some 0, none, 2⟩
  refine ⟨Tree.ofOutline_branched, by decide, two, ?_, node 1 _ _ rfl rfl, ?_, ?_⟩
  · exact (handed _ Sink.recorder_steady ⟨[], 0⟩).1
  · exact (below _ Sink.recorder_steady ⟨[], 0⟩).2 1 (by decide)
  · exact (nothing _ Sink.recorder_steady ⟨[], 0⟩).1

end Renderer

end Sidebar
