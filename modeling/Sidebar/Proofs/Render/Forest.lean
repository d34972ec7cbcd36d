import Sidebar.Proofs.Tree.Row
import Sidebar.Render.Walk

/-!
# Render — the rendered forest

What a renderer draws of a tree is a forest again: the items of the levels that are not hidden,
with links in place of addresses.  The entries of a rendering are the items of that forest in
reading order.

* `Renderer.pruneAll`: what is left of some items.
* `Renderer.treeEntries_layOut`, `Renderer.entries_layOut`: the entries of a tree and of a node.
* `Rendering.entries_eq`: the entries of any rendering are those of its forest.
-/

namespace Sidebar

/-! ### The entries of a forest -/

namespace Item

mutual

/-- The entries of an item and of what is below it. -/
def entries (depth : Nat) (isLast : Bool) : Item → List Entry
  | ⟨text, url, children⟩ =>
    ⟨text, url, depth, children.isEmpty, isLast⟩ :: entriesAll (depth + 1) children

/-- The entries of items in a row. -/
def entriesAll (depth : Nat) : List Item → List Entry
  | []      => []
  | x :: xs => x.entries depth xs.isEmpty ++ entriesAll depth xs

end

theorem entriesAll_eq_nil {depth : Nat} {xs : List Item} : entriesAll depth xs = [] ↔ xs = [] := by
  match xs with
  | []                      => simp [entriesAll]
  | ⟨text, url, ys⟩ :: xs => simp [entriesAll, entries]

end Item

/-- The label, the link and the depth of an entry. -/
def Entry.row (e : Entry) : String × String × Nat := (e.text, e.href, e.depth)

mutual

theorem Item.map_row_entries (depth : Nat) (isLast : Bool) : (x : Item) →
    (x.entries depth isLast).map Entry.row = x.listing depth
  | ⟨text, url, children⟩ => by
      rw [Item.entries, List.map_cons, Item.map_row_entriesAll, Item.listing, Entry.row]

theorem Item.map_row_entriesAll (depth : Nat) : (xs : List Item) →
    (Item.entriesAll depth xs).map Entry.row = Item.listingAll depth xs
  | [] => rfl
  | x :: xs => by
      rw [Item.entriesAll, List.map_append, Item.map_row_entries, Item.map_row_entriesAll,
        Item.listingAll]

end

namespace Renderer

variable {r : Renderer} {d : Nat}

/-! ### Levels -/

theorem hides_succ (h : r.hides d = true) : r.hides (d + 1) = true := by
  cases e : r.maxDepth with
  | none => simp [hides, e] at h
  | some levels =>
      simp only [hides, e, Option.any_some, decide_eq_true_eq] at h ⊢
      exact Nat.le_succ_of_le h

/-- Below the last level drawn, everything is hidden, and below the others something is not. -/
theorem hides_succ_eq (h : r.hides d = false) : r.hides (d + 1) = r.endsAt d := by
  cases e : r.maxDepth with
  | none => simp [hides, endsAt, e]
  | some levels =>
      simp only [hides, endsAt, e, Option.any_some, decide_eq_false_iff_not] at h ⊢
      rw [Bool.eq_iff_iff, decide_eq_true_eq, beq_iff_eq]
      omega

mutual

/-- The item as it is drawn at a depth, with the levels below it that are not hidden. -/
def prune (r : Renderer) (depth : Nat) : Item → Item
  | ⟨text, url, children⟩ => ⟨text, Link.resolve r.linkBase url, r.pruneAll (depth + 1) children⟩

/-- The items as they are drawn at a depth; none where that depth is hidden. -/
def pruneAll (r : Renderer) (depth : Nat) : List Item → List Item
  | []      => []
  | x :: xs => if r.hides depth then [] else r.prune depth x :: r.pruneAll depth xs

end

theorem pruneAll_of_hides (h : r.hides d = true) (xs : List Item) : r.pruneAll d xs = [] := by
  cases xs with
  | nil => rw [pruneAll]
  | cons x xs => rw [pruneAll, if_pos h]

theorem pruneAll_cons (h : r.hides d = false) (x : Item) (xs : List Item) :
    r.pruneAll d (x :: xs) = r.prune d x :: r.pruneAll d xs := by
  rw [pruneAll, if_neg (by simp [h])]

theorem isEmpty_pruneAll (h : r.hides d = false) (xs : List Item) :
    (r.pruneAll d xs).isEmpty = xs.isEmpty := by
  cases xs with
  | nil => rw [pruneAll]
  | cons x xs => rw [pruneAll_cons h, List.isEmpty_cons, List.isEmpty_cons]

/-- An item is drawn as a leaf if there is nothing below it, or nothing that is drawn. -/
theorem isEmpty_pruneAll_succ (h : r.hides d = false) (xs : List Item) :
    (r.pruneAll (d + 1) xs).isEmpty = (xs.isEmpty || r.endsAt d) := by
  cases hd : r.hides (d + 1) with
  | true =>
      rw [pruneAll_of_hides hd, ← hides_succ_eq h, hd, Bool.or_true, List.isEmpty_nil]
  | false => rw [isEmpty_pruneAll hd, ← hides_succ_eq h, hd, Bool.or_false]

/-- The entries of a row that is drawn begin with those of its first item, unless it is hidden. -/
theorem entriesAll_pruneAll_cons (d : Nat) (x : Item) (xs : List Item) :
    Item.entriesAll d (r.pruneAll d (x :: xs)) =
      (if r.hides d then [] else (r.prune d x).entries d xs.isEmpty) ++
        Item.entriesAll d (r.pruneAll d xs) := by
  cases h : r.hides d with
  | true => rw [pruneAll_of_hides h, pruneAll_of_hides h]; rfl
  | false => rw [pruneAll_cons h, Item.entriesAll, isEmpty_pruneAll h]; rfl

/-! ### The entries of a tree -/

variable {o : Outline} {s : Row} {n base : Nat} {x : Item} {zs : List Item} {b : Bool}

theorem isNone_nextSibling? (hs : (Row.top o).Below s) (hx : s.At n x zs) :
    ((Tree.layOut o).nextSibling? n).isNone = zs.isEmpty := by
  rw [Row.nextSibling?_eq hs hx]
  cases zs <;> rfl

/-- The entry of a node, from the row it stands in. -/
theorem entry?_eq (hs : (Row.top o).Below s) (hx : s.At n x zs) (hd : s.depth = base + d) :
    r.entry? (Tree.layOut o) base b n =
      if r.hides d then none
      else some ⟨x.text, Link.resolve r.linkBase x.url, d, x.children.isEmpty || r.endsAt d,
        if d = 0 then b else zs.isEmpty⟩ := by
  have depth : s.depth - base = d := by omega
  have last := isNone_nextSibling? hs hx
  unfold entry?
  rw [(Row.stands_of_below hs).cell? hx, Option.bind_some]
  simp only [depth, last, Cell.isLeaf, Row.isEmpty_nodes, Row.under]

mutual

/-- The entries of an item and of what is below it, among the nodes of a tree. -/
theorem filterMap_item {s : Row} {n d : Nat} {zs : List Item} : (x : Item) →
    (Row.top o).Below s → s.At n x zs → s.depth = base + d →
    (List.range' n x.count).filterMap (r.entry? (Tree.layOut o) base b) =
      if r.hides d then []
      else (r.prune d x).entries d (if d = 0 then b else zs.isEmpty)
  | ⟨text, url, children⟩, hs, hx, hd => by
      have below := filterMap_items (d := d) children [] (hs.under hx) rfl
        (congrArg Nat.succ hd)
      have head := entry?_eq (r := r) (b := b) hs hx hd
      rw [Row.under, Item.countAll, Nat.add_zero] at below
      rw [Item.count, Nat.add_comm, List.range'_succ, List.filterMap_cons, head, below]
      cases h : r.hides d with
      | true => rw [pruneAll_of_hides (hides_succ h)]; rfl
      | false => rw [prune, Item.entries, isEmpty_pruneAll_succ h]; rfl

/-- The entries of the items of a row that is not at the top of the rendering. -/
theorem filterMap_items {s : Row} {d : Nat} : (xs ys : List Item) → (Row.top o).Below s →
    s.items = ys ++ xs → s.depth = base + (d + 1) →
    (List.range' (s.start + Item.countAll ys) (Item.countAll xs)).filterMap
        (r.entry? (Tree.layOut o) base b) =
      Item.entriesAll (d + 1) (r.pruneAll (d + 1) xs)
  | [], ys, hs, e, hd => rfl
  | x :: xs, ys, hs, e, hd => by
      have head := filterMap_item x hs ⟨ys, e, rfl⟩ hd
      have tail := filterMap_items xs (ys ++ [x]) hs (by rw [e, List.append_assoc]; rfl) hd
      rw [Item.countAll_append, Item.countAll, Item.countAll, ← Nat.add_assoc,
        Nat.add_zero] at tail
      rw [Item.countAll, ← List.range'_append_1, List.filterMap_append, head, tail,
        entriesAll_pruneAll_cons, if_neg (Nat.succ_ne_zero d)]

end

/-- The entries of a node and what is below it are those of its item. -/
theorem subtreeEntries_eq (hs : (Row.top o).Below s) (hx : s.At n x zs) :
    r.subtreeEntries (Tree.layOut o) b n =
      if r.hides 0 then [] else (r.prune 0 x).entries 0 b := by
  rw [subtreeEntries, (Row.stands_of_below hs).cell? hx]
  simp only [Cursor.rest_add]
  exact filterMap_item x hs hx rfl

theorem flatMap_starts (xs ys : List Item) (e : o.items = ys ++ xs) :
    (Item.starts (Item.countAll ys) xs).flatMap (fun n =>
        r.subtreeEntries (Tree.layOut o) ((Tree.layOut o).nextSibling? n).isNone n) =
      Item.entriesAll 0 (r.pruneAll 0 xs) := by
  induction xs generalizing ys with
  | nil => rfl
  | cons x xs ih =>
      have hx : (Row.top o).At (Item.countAll ys) x xs := ⟨ys, e, (Nat.zero_add _).symm⟩
      have last := isNone_nextSibling? .refl hx
      have tail := ih (ys ++ [x]) (by rw [e, List.append_assoc]; rfl)
      rw [Item.countAll_append, Item.countAll, Item.countAll, Nat.add_zero] at tail
      rw [Item.starts, List.flatMap_cons, subtreeEntries_eq .refl hx, last, tail,
        entriesAll_pruneAll_cons]

theorem treeEntries_layOut (r : Renderer) (o : Outline) :
    r.treeEntries (Tree.layOut o) = Item.entriesAll 0 (r.pruneAll 0 o.items) :=
  flatMap_starts o.items [] rfl

theorem entries_layOut (r : Renderer) (h : n < (Tree.layOut o).size) :
    r.entries (Tree.layOut o) n = Item.entriesAll 0 (r.pruneAll 0 [(Tree.layOut o).item n]) := by
  obtain ⟨s, x, zs, hs, hx⟩ := Row.exists_at_of_lt h
  rw [entries, subtreeEntries_eq hs hx, Row.item_eq hs hx, entriesAll_pruneAll_cons, pruneAll,
    Item.entriesAll, List.append_nil, List.isEmpty_nil]

end Renderer

/-! ### Renderings -/

/-- A whole tree is asked for, or one of its nodes, and the forest is what the renderer leaves of
it. -/
inductive Rendering : Call → List Item → Prop where
  | tree {o : Outline} {t : Tree} (h : Tree.ofOutline o = .ok t) (r : Renderer) :
      Rendering (.tree r t) (r.pruneAll 0 t.toOutline.items)
  | node {o : Outline} {t : Tree} (h : Tree.ofOutline o = .ok t) (r : Renderer) {n : Nat}
      (hn : n < t.size) : Rendering (.node r t n) (r.pruneAll 0 [t.item n])

/-- The entries of a rendering are those of its forest. -/
theorem Rendering.entries_eq {c : Call} {xs : List Item} (h : Rendering c xs) :
    c.entries = Item.entriesAll 0 xs := by
  cases h with
  | tree h r =>
      obtain rfl := Tree.ofOutline_eq_ok h
      rw [Call.entries, Tree.toOutline_layOut, r.treeEntries_layOut]
  | node h r hn =>
      obtain rfl := Tree.ofOutline_eq_ok h
      exact r.entries_layOut hn

end Sidebar
