import Sidebar.Proofs.Outline.Label
import Sidebar.Proofs.Tree.Layout

/-!
# Tree — building a tree

An outline has a tree exactly when all its items have labels.  The tree keeps the whole outline;
without one, the first item that has no label is named.

While a tree is built it is not coherent: the node that is worked on lacks the children that are
still to come, and so do those above it, and none of them ends where it should.  But what an item
adds can be told at once: its cells behind all others, already complete, and one more child for its
parent.  So the tree that is built in the end is the layout of its outline.

* `Tree.append`: a tree with more cells, entered under their addresses.
* `Tree.grown`: a tree with more items below a node, all at once.
* `Tree.addItem_eq`, `Tree.addItems_eq`: adding items one by one gives this tree.
* `Tree.ofOutline_eq`: the tree of an outline is its layout, unless an item has no label.
* `Tree.ofOutline_lossless`: what can be built, and what the tree then holds.
-/

namespace Sidebar

theorem Cell.index_append (byUrl : Std.TreeMap String (List Nat)) (start : Nat)
    (cs ds : List Cell) : Cell.index byUrl start (cs ++ ds) =
      Cell.index (Cell.index byUrl start cs) (start + cs.length) ds := by
  induction cs generalizing byUrl start with
  | nil => rfl
  | cons c cs ih =>
      rw [List.cons_append, Cell.index, Cell.index, ih, List.length_cons, Nat.add_assoc,
        Nat.add_comm 1]

namespace Tree

variable {t : Tree} {parent : Option Nat}

/-! ### Changes of a cell -/

theorem modify_append {xs : Array Cell} {p : Nat} (h : p < xs.size) (f : Cell → Cell)
    (ys : Array Cell) : (xs ++ ys).modify p f = xs.modify p f ++ ys := by
  refine Array.ext_getElem? fun i => ?_
  rw [Array.getElem?_modify, Array.getElem?_append, Array.getElem?_append, Array.size_modify,
    Array.getElem?_modify]
  by_cases inside : i < xs.size
  · rw [if_pos inside, if_pos inside]
  · have elsewhere : p ≠ i := fun e => inside (e ▸ h)
    rw [if_neg inside, if_neg inside, if_neg elsewhere]

theorem modify_append_cons (xs : Array Cell) (f : Cell → Cell) (c : Cell) (cs : List Cell) :
    (xs ++ (c :: cs).toArray).modify xs.size f = xs ++ (f c :: cs).toArray := by
  refine Array.ext_getElem? fun i => ?_
  rw [Array.getElem?_modify, Array.getElem?_append, Array.getElem?_append]
  rcases Nat.lt_trichotomy i xs.size with before | rfl | behind
  · rw [if_pos before, if_pos before, if_neg (Nat.ne_of_gt before)]
  · simp
  · obtain ⟨k, rest⟩ : ∃ k, i - xs.size = k + 1 :=
      Nat.exists_eq_succ_of_ne_zero (Nat.sub_ne_zero_of_lt behind)
    rw [if_neg (Nat.ne_of_lt behind), if_neg (Nat.lt_asymm behind), if_neg (Nat.lt_asymm behind),
      rest]
    rfl

/-! ### Cells behind all others -/

/-- The tree with some cells behind its own, entered under their addresses. -/
def append (t : Tree) (cs : List Cell) : Tree :=
  ⟨t.cells ++ cs.toArray, t.roots, Cell.index t.byUrl t.size cs⟩

theorem append_nil (t : Tree) : t.append [] = t := by
  rw [append, Array.append_empty]
  rfl

@[simp] theorem size_append (t : Tree) (cs : List Cell) :
    (t.append cs).size = t.size + cs.length := by
  simp [size, append]

theorem append_append (t : Tree) (cs ds : List Cell) :
    (t.append cs).append ds = t.append (cs ++ ds) := by
  have index : (t.append cs).byUrl = Cell.index t.byUrl t.size cs := rfl
  rw [append, size_append, index, ← Cell.index_append, append, append, Array.append_assoc,
    List.append_toArray cs ds]

/-- The depth below a node does not change with what comes behind it. -/
theorem depthBelow_append (h : ∀ p ∈ parent, p < t.size) (cs : List Cell) :
    (t.append cs).depthBelow parent = t.depthBelow parent := by
  cases parent with
  | none => rfl
  | some p =>
      have stands : p < t.cells.size := h p rfl
      rw [depthBelow, depthBelow, cell?, cell?, append, Array.getElem?_append_left stands]

theorem depthBelow_last (t : Tree) (c : Cell) :
    (t.append [c]).depthBelow (some t.size) = c.depth + 1 := by
  simp [depthBelow, cell?, append, size]

/-! ### Links -/

/-- The tree with more nodes right below a parent, or at the top level. -/
def links (t : Tree) (ns : List Nat) (parent : Option Nat) : Tree :=
  ns.foldl (fun t n => t.link n parent) t

theorem links_cons (t : Tree) (n : Nat) (ns : List Nat) (parent : Option Nat) :
    t.links (n :: ns) parent = (t.link n parent).links ns parent :=
  rfl

@[simp] theorem size_link (t : Tree) (n : Nat) (parent : Option Nat) :
    (t.link n parent).size = t.size := by
  cases parent with
  | none => rfl
  | some p => exact Array.size_modify

/-- Children have no influence on depths. -/
@[simp] theorem depthBelow_link (t : Tree) (n : Nat) (parent below : Option Nat) :
    (t.link n parent).depthBelow below = t.depthBelow below := by
  cases below with
  | none => rfl
  | some q =>
      cases parent with
      | none => rfl
      | some p =>
          simp only [depthBelow, cell?, link, Array.getElem?_modify]
          split
          · rw [Option.map_map]
            rfl
          · rfl

/-- Nodes at the top level. -/
theorem links_none (t : Tree) (ns : List Nat) :
    t.links ns none = { t with roots := t.roots ++ ns } := by
  induction ns generalizing t with
  | nil => rw [List.append_nil]; rfl
  | cons n ns ih =>
      rw [links_cons, ih, link, List.append_assoc]
      rfl

theorem link_append (h : ∀ p ∈ parent, p < t.size) (n : Nat) (cs : List Cell) :
    (t.append cs).link n parent = (t.link n parent).append cs := by
  cases parent with
  | none => rfl
  | some p =>
      have stands : p < t.cells.size := h p rfl
      simp only [link, append, modify_append stands, size, Array.size_modify]

/-- What is linked to a node that is there already does not depend on what comes behind it. -/
theorem links_append (h : ∀ p ∈ parent, p < t.size) (ns : List Nat) (cs : List Cell) :
    (t.append cs).links ns parent = (t.links ns parent).append cs := by
  induction ns generalizing t with
  | nil => rfl
  | cons n ns ih =>
      have below : ∀ p ∈ parent, p < (t.link n parent).size := by simpa using h
      rw [links_cons, links_cons, link_append h, ih below]

/-- The children of the last node. -/
theorem links_last (t : Tree) (c : Cell) (ns : List Nat) :
    (t.append [c]).links ns (some t.size) =
      t.append [{ c with children := c.children ++ ns }] := by
  induction ns generalizing c with
  | nil => rw [List.append_nil]; rfl
  | cons n ns ih =>
      have link : (t.append [c]).link n (some t.size) =
          t.append [{ c with children := c.children ++ [n] }] := by
        simp only [Tree.link, append, size, modify_append_cons]
        rfl
      rw [links_cons, link, ih, List.append_assoc, List.singleton_append]

theorem close_append (t : Tree) (c : Cell) (cs : List Cell) :
    (t.append (c :: cs)).close t.size =
      t.append ({ c with stop := t.size + 1 + cs.length } :: cs) := by
  have size : (t.append (c :: cs)).size = t.size + 1 + cs.length := by
    rw [size_append, List.length_cons, Nat.add_assoc, Nat.add_comm 1]
  rw [close, size]
  simp only [append, Tree.size, modify_append_cons]
  rfl

/-! ### Items -/

/-- The tree with some items right below a parent, or at the top level, behind all others. -/
def grown (t : Tree) (parent : Option Nat) (xs : List Item) : Tree :=
  (t.links (Item.starts t.size xs) parent).append
    (Item.cellsAll t.size (t.depthBelow parent) parent xs)

theorem grown_nil (t : Tree) (parent : Option Nat) : t.grown parent [] = t :=
  append_nil t

theorem grown_singleton (t : Tree) (parent : Option Nat) (x : Item) : t.grown parent [x] =
    (t.link t.size parent).append (x.cells t.size (t.depthBelow parent) parent) := by
  rw [grown, Item.cellsAll, Item.cellsAll, List.append_nil]
  rfl

theorem size_grown_singleton (t : Tree) (parent : Option Nat) (x : Item) :
    (t.grown parent [x]).size = t.size + x.count := by
  rw [grown_singleton, size_append, size_link, Item.length_cells]

theorem grown_cons (h : ∀ p ∈ parent, p < t.size) (x : Item) (xs : List Item) :
    (t.grown parent [x]).grown parent xs = t.grown parent (x :: xs) := by
  have below : ∀ p ∈ parent, p < (t.link t.size parent).size := by simpa using h
  rw [grown, size_grown_singleton, grown_singleton, links_append below, depthBelow_append below,
    depthBelow_link, append_append, grown, Item.starts, Item.cellsAll]
  rfl

/-- An item is linked to its parent, and stands behind all others. -/
theorem push_eq (h : ∀ p ∈ parent, p < t.size) (text url : String) : t.push text url parent =
    (t.link t.size parent).append
      [⟨text, url, t.depthBelow parent, parent, t.size + 1, []⟩] := by
  rw [← link_append h, append, ← Array.push_eq_append]
  rfl

theorem depthBelow_push (h : ∀ p ∈ parent, p < t.size) (text url : String) :
    (t.push text url parent).depthBelow (some t.size) = t.depthBelow parent + 1 := by
  have depth := depthBelow_last (t.link t.size parent)
    ⟨text, url, t.depthBelow parent, parent, t.size + 1, []⟩
  rw [size_link] at depth
  rw [push_eq h, depth]

theorem lt_size_push (h : ∀ p ∈ parent, p < t.size) (text url : String) :
    ∀ p ∈ some t.size, p < (t.push text url parent).size := by
  rintro p ⟨⟩
  rw [push_eq h, size_append, size_link]
  exact Nat.lt_succ_self _

/-- An item is complete when its children have been added and it has been closed. -/
theorem close_grown_push (h : ∀ p ∈ parent, p < t.size) (text url : String)
    (children : List Item) :
    ((t.push text url parent).grown (some t.size) children).close t.size =
      t.grown parent [⟨text, url, children⟩] := by
  have size : (t.link t.size parent).size = t.size := size_link t _ _
  rw [grown, depthBelow_push h, push_eq h, size_append, size, List.length_singleton]
  -- the item is the last node while its children are linked, and only then do they stand behind it
  have linked := links_last (t.link t.size parent)
    ⟨text, url, t.depthBelow parent, parent, t.size + 1, []⟩ (Item.starts (t.size + 1) children)
  rw [size] at linked
  rw [linked, append_append, List.singleton_append]
  have closed := close_append (t.link t.size parent)
  rw [size] at closed
  rw [closed, Item.length_cellsAll, grown_singleton, Item.cells]
  rfl

/-! ### Building -/

mutual

/-- An item is added as a whole, or the first one that has no label is named. -/
theorem addItem_eq (path : Path) : (x : Item) → (t : Tree) → (parent : Option Nat) →
    (∀ p ∈ parent, p < t.size) → t.addItem parent path x =
      match x.unlabelled? path with
      | some p => .error ⟨p, .emptyText⟩
      | none   => .ok (t.grown parent [x])
  | ⟨text, url, children⟩, t, parent, h => by
      rw [addItem, Item.unlabelled?]
      by_cases bare : text = ""
      · rw [if_pos bare, if_pos bare]
      · rw [if_neg bare, if_neg bare, addItems_eq path 0 children _ _ (lt_size_push h text url)]
        cases Item.unlabelledAmong? path 0 children with
        | some p => rfl
        | none => exact congrArg Except.ok (close_grown_push h text url children)

theorem addItems_eq (path : Path) (i : Nat) : (xs : List Item) → (t : Tree) →
    (parent : Option Nat) → (∀ p ∈ parent, p < t.size) → t.addItems parent path i xs =
      match Item.unlabelledAmong? path i xs with
      | some p => .error ⟨p, .emptyText⟩
      | none   => .ok (t.grown parent xs)
  | [], t, parent, _ => by rw [addItems, grown_nil]; rfl
  | x :: xs, t, parent, h => by
      rw [addItems, Item.unlabelledAmong?, addItem_eq (path ++ [i]) x t parent h]
      cases x.unlabelled? (path ++ [i]) with
      | some p => rfl
      | none =>
          have stands : ∀ p ∈ parent, p < (t.grown parent [x]).size := fun p hp => by
            rw [size_grown_singleton]
            exact Nat.lt_add_right _ (h p hp)
          rw [Option.none_or, ← grown_cons h x xs]
          exact addItems_eq path (i + 1) xs _ _ stands

end

theorem grown_empty (o : Outline) : empty.grown none o.items = layOut o := by
  rw [grown, links_none, append, empty, Array.empty_append, List.nil_append]
  rfl

/-- The tree of an outline is its layout, unless an item has no label. -/
theorem ofOutline_eq (o : Outline) : ofOutline o =
    match o.unlabelled? with
    | some p => .error ⟨p, .emptyText⟩
    | none   => .ok (layOut o) := by
  rw [ofOutline, addItems_eq [] 0 o.items empty none nofun, grown_empty]
  rfl

theorem ofOutline_eq_ok {o : Outline} {t : Tree} (h : ofOutline o = .ok t) : t = layOut o := by
  rw [ofOutline_eq] at h
  split at h
  · exact nomatch h
  · exact (Except.ok.inj h).symm

/-- An outline whose labels are all there can be built. -/
theorem ofOutline_eq_layOut {o : Outline} (h : o.unlabelled? = none) :
    ofOutline o = .ok (layOut o) := by
  rw [ofOutline_eq, h]

theorem ofOutline_of_labelled {o : Outline} (h : o.Labelled) : ofOutline o = .ok (layOut o) :=
  ofOutline_eq_layOut (Outline.unlabelled?_eq_none.mpr h)

theorem ofOutline_of_firstUnlabelled {o : Outline} {p : Path} (h : o.FirstUnlabelled p) :
    ofOutline o = .error ⟨p, .emptyText⟩ := by
  rw [ofOutline_eq, Outline.unlabelled?_eq_some.mpr h]

theorem labelled_of_ofOutline {o : Outline} {t : Tree} (h : ofOutline o = .ok t) : o.Labelled := by
  rcases o.unlabelled?_spec with ⟨-, all⟩ | ⟨p, -, first⟩
  · exact all
  · exact nomatch (ofOutline_of_firstUnlabelled first).symm.trans h

/-- A tree is built exactly when every item has a label, and holds the outline as it was; the
misfit is always the first item without a label, in reading order. -/
theorem ofOutline_lossless (o : Outline) :
    ((∃ t, ofOutline o = .ok t) ↔ o.Labelled) ∧
      (∀ t, ofOutline o = .ok t → t.toOutline = o ∧ t.size = o.count) ∧
      ∀ m, ofOutline o = .error m ↔ m.reason = .emptyText ∧ o.FirstUnlabelled m.path := by
  refine ⟨?_, fun t h => ?_, fun m => ?_⟩
  · rcases o.unlabelled?_spec with ⟨-, h⟩ | ⟨p, -, h⟩
    · exact ⟨fun _ => h, fun _ => ⟨_, ofOutline_of_labelled h⟩⟩
    · rw [ofOutline_of_firstUnlabelled h]
      exact ⟨nofun, fun all => absurd all h.not_labelled⟩
  · obtain rfl := ofOutline_eq_ok h
    exact ⟨toOutline_layOut o, size_layOut o⟩
  · obtain ⟨path, reason⟩ := m
    rcases o.unlabelled?_spec with ⟨-, h⟩ | ⟨p, -, h⟩
    · rw [ofOutline_of_labelled h]
      exact ⟨nofun, fun first => absurd h first.2.not_labelled⟩
    · rw [ofOutline_of_firstUnlabelled h, Except.error.injEq, Misfit.mk.injEq]
      constructor
      · rintro ⟨rfl, rfl⟩
        exact ⟨rfl, h⟩
      · rintro ⟨rfl, first⟩
        exact ⟨h.unique first, rfl⟩

/-- Two labels are missing, and the first is named; a tree holds what is labelled. -/
theorem ofOutline_lossless_two :
    ofOutline ⟨[⟨"A", "", [⟨"B", "b", []⟩, ⟨"", "c", []⟩]⟩, ⟨"", "", []⟩]⟩ =
        .error ⟨[0, 1], .emptyText⟩ ∧
      ofOutline ⟨[⟨"A", "", [⟨"B", "b", []⟩]⟩]⟩ = .ok (layOut ⟨[⟨"A", "", [⟨"B", "b", []⟩]⟩]⟩) ∧
      (layOut ⟨[⟨"A", "", [⟨"B", "b", []⟩]⟩]⟩).toOutline = ⟨[⟨"A", "", [⟨"B", "b", []⟩]⟩]⟩ :=
  ⟨rfl, rfl, ((ofOutline_lossless _).2.1 _ rfl).1⟩

end Tree

end Sidebar
