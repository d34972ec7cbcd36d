import Sidebar.Proofs.Render.Line
import Sidebar.Proofs.Render.Shown
import Sidebar.Proofs.Tree.Preorder
import Sidebar.Proofs.Tree.Sibling

/-!
# Render — branches

A drawing of branches knows of the tree only what it keeps for each open level, whether it goes on
below.  These levels are always those of the ancestors of the entry that is drawn, whatever has
been drawn in between, so that a branch passes a level with a line exactly where the ancestor there
has another sibling to come.

* `Tree.Branch`: what the text of a node looks like in the tree.
* `Tree.Guides`: the open levels are those of the ancestors of a node.
* `Renderer.Draws`: some entries get the branches of some nodes, and leave the levels as they were.
* `Renderer.branched_of_ofOutline`: every rendering draws the right branches.
-/

namespace Sidebar

namespace Tree

/-! ### Branches -/

/-- The text of an entry that is drawn for node `n`, one of the nodes `ns`, with depths counted from
a base: a segment for each level above, then a corner, then the label.  A corner tells whether `n`
is followed, and a segment whether the ancestor on its level is, which is one of the nodes, too. -/
def Branch (t : Tree) (base : Nat) (ns : List Nat) (n : Nat) (e : Entry) (text : String) : Prop :=
  ∃ segments : List String, segments.length = e.depth ∧
    (∀ j < e.depth, ∃ a ∈ ns, ∃ c, t.up (e.depth - j) n = some a ∧ t.cell? a = some c ∧
      c.depth = base + j ∧ segments[j]? = some (if t.Followed ns a then "│   " else "    ")) ∧
    text = String.join segments ++ (if t.Followed ns n then "├── " else "└── ") ++
      (if e.href = "" then e.text else e.text ++ " (" ++ e.href ++ ")") ++ "\n"

/-- For each level between a base and node `n`, the ancestor on it is one of the nodes `ns`, and
the flag of the level tells whether it is followed. -/
def Guides (t : Tree) (base : Nat) (ns : List Nat) (n : Nat) (flags : List Bool) : Prop :=
  ∀ j < flags.length, ∃ a ∈ ns, ∃ c, t.up (flags.length - j) n = some a ∧ t.cell? a = some c ∧
    c.depth = base + j ∧ flags[j]? = some (decide (t.Followed ns a))

variable {t : Tree} {base n p : Nat} {ns : List Nat} {flags : List Bool} {e : Entry} {c : Cell}

theorem Guides.nil : t.Guides base ns n [] := fun _ lt => absurd lt (Nat.not_lt_zero _)

/-- A child has the levels of its parent, and that of the parent itself. -/
theorem Guides.child (h : t.Guides base ns p flags) (hp : p ∈ ns) (hc : t.cell? p = some c)
    (depth : c.depth = base + flags.length) (parent : t.parent? n = some p) :
    t.Guides base ns n (flags ++ [decide (t.Followed ns p)]) := by
  intro j lt
  rw [List.length_append, List.length_singleton] at lt ⊢
  have way : t.up (flags.length + 1 - j) n = t.up (flags.length - j) p := by
    rw [Nat.sub_add_comm (Nat.le_of_lt_succ lt), up, parent, Option.bind_some]
  rw [way]
  rcases Nat.lt_or_eq_of_le (Nat.le_of_lt_succ lt) with lt | rfl
  · obtain ⟨a, ha, d, hu, hd, level, flag⟩ := h j lt
    exact ⟨a, ha, d, hu, hd, level, by rw [List.getElem?_append_left lt, flag]⟩
  · exact ⟨p, hp, c, by rw [Nat.sub_self]; rfl, hc, depth, List.getElem?_concat_length⟩

theorem Guides.branch (h : t.Guides base ns n flags) (depth : e.depth = flags.length)
    (last : e.isLast = !decide (t.Followed ns n)) :
    t.Branch base ns n e
      (String.join (flags.map Drawing.segment) ++ Drawing.corner e.isLast ++ e.label) := by
  have corner : Drawing.corner e.isLast = if t.Followed ns n then "├── " else "└── " := by
    rw [last, Drawing.corner]
    by_cases followed : t.Followed ns n <;> simp [followed]
  have label : e.label =
      (if e.href = "" then e.text else e.text ++ " (" ++ e.href ++ ")") ++ "\n" := by
    rw [Entry.label]
    have close : ")\n" = ")" ++ "\n" := by decide
    split
    · rfl
    · rw [close, ← String.append_assoc]
  refine ⟨flags.map Drawing.segment, by rw [List.length_map, depth], fun j lt => ?_, ?_⟩
  · obtain ⟨a, ha, c, hu, hc, level, flag⟩ := h j (depth ▸ lt)
    refine ⟨a, ha, c, by rw [depth, hu], hc, level, ?_⟩
    rw [List.getElem?_map, flag, Option.map_some, Drawing.segment]
    by_cases followed : t.Followed ns a <;> simp [followed]
  · rw [corner, label, ← String.append_assoc]

end Tree

namespace Renderer

/-! ### Drawing some nodes -/

/-- The entries are drawn for the nodes: as long as the open levels begin with the flags, each of
them gets the branch of its node, and then they begin with the flags again. -/
def Draws (t : Tree) (base : Nat) (ns : List Nat) (flags : List Bool) (nodes : List Nat)
    (es : List Entry) : Prop :=
  ∀ levels, flags <+: levels →
    flags <+: (Drawing.branches.run levels (es.map .entry)).1 ∧
      List.Forall₂ (fun n (w : Entry × String) => t.Branch base ns n w.1 w.2) nodes
        (es.zip (Drawing.branches.run levels (es.map .entry)).2)

variable {t : Tree} {base n : Nat} {ns nodes nodes' : List Nat} {flags : List Bool} {e : Entry}
  {es es' : List Entry}

theorem length_run_branches (levels : List Bool) (es : List Entry) :
    (Drawing.branches.run levels (es.map .entry)).2.length = es.length :=
  (Drawing.byLine_branches.run levels es).length_eq.symm

theorem Draws.nil : Draws t base ns flags [] [] := fun _ h => ⟨h, .nil⟩

theorem Draws.append (h : Draws t base ns flags nodes es)
    (h' : Draws t base ns flags nodes' es') :
    Draws t base ns flags (nodes ++ nodes') (es ++ es') := by
  intro levels begins
  obtain ⟨keeps, texts⟩ := h levels begins
  obtain ⟨keeps', texts'⟩ := h' _ keeps
  rw [List.map_append, Drawing.run_append,
    List.zip_append (length_run_branches levels es).symm]
  exact ⟨keeps', List.rel_append texts texts'⟩

/-- The open levels are cut back to those above the entry. -/
theorem entry_branches {levels : List Bool} (begins : flags <+: levels)
    (depth : e.depth = flags.length) :
    Drawing.branches.entry levels e =
      (if e.isLeaf then flags else flags ++ [!e.isLast],
        String.join (flags.map Drawing.segment) ++ Drawing.corner e.isLast ++ e.label) := by
  have cut : levels.take e.depth = flags := by
    rw [depth, ← List.prefix_iff_eq_take.mp begins]
  simp only [Drawing.branches, cut]

/-- A leaf leaves no level open, and any other entry one for the entries below it. -/
theorem Draws.cons (guides : t.Guides base ns n flags) (depth : e.depth = flags.length)
    (last : e.isLast = !decide (t.Followed ns n))
    (below : if e.isLeaf then nodes = [] ∧ es = []
      else Draws t base ns (flags ++ [decide (t.Followed ns n)]) nodes es) :
    Draws t base ns flags (n :: nodes) (e :: es) := by
  intro levels begins
  have branch := guides.branch depth last
  rw [List.map_cons, Drawing.run_cons, Drawing.mark, entry_branches begins depth]
  cases leaf : e.isLeaf with
  | true =>
      rw [leaf, if_pos rfl] at below
      obtain ⟨rfl, rfl⟩ := below
      exact ⟨List.prefix_rfl, .cons branch .nil⟩
  | false =>
      rw [leaf, if_neg Bool.false_ne_true] at below
      rw [if_neg Bool.false_ne_true, last, Bool.not_not]
      obtain ⟨keeps, texts⟩ := below _ List.prefix_rfl
      exact ⟨(List.prefix_append flags _).trans keeps, .cons (last ▸ branch) texts⟩

/-! ### Drawing the nodes of a row -/

section
variable {r : Renderer} {o : Outline} {b : Bool} {s : Row} {d : Nat} {x : Item} {zs : List Item}
  {range : Cursor}

/-- The entries of some nodes are drawn for those of the nodes that are shown, among the nodes that
are shown of a range. -/
def DrawsShown (r : Renderer) (t : Tree) (base : Nat) (range : Cursor) (b : Bool)
    (flags : List Bool) (nodes : List Nat) : Prop :=
  Draws t base (r.shown t base range) flags (nodes.filter (r.shows t base))
    (nodes.filterMap (r.entry? t base b))

theorem lt_size_of_mem_shown {m : Nat} (h : m ∈ r.shown t base range) : m < t.size := by
  obtain ⟨c, hc, -⟩ := (Option.any_eq_true _ _).mp (List.mem_filter.mp h).2
  exact Tree.cell?_eq_some_iff_lt.mp ⟨c, hc⟩

theorem shows_of_at (hs : (Row.top o).Below s) (hx : s.At n x zs) (hd : s.depth = base + d) :
    r.shows (Tree.layOut o) base n = !r.hides d := by
  have depth : s.depth - base = d := by omega
  rw [shows_eq ((Row.stands_of_below hs).cell? hx), hides_eq, Bool.not_not, depth]

/-- Where there are no entries, nothing is shown. -/
theorem filter_shows_eq_nil (h : nodes.filterMap (r.entry? t base b) = []) :
    nodes.filter (r.shows t base) = [] := by
  have rows := r.map_row?_filter t base b nodes
  rw [h, List.map_nil] at rows
  exact List.map_eq_nil_iff.mp rows

theorem drawsShown_of_eq_nil (h : nodes.filterMap (r.entry? t base b) = []) :
    r.DrawsShown t base range b flags nodes := by
  rw [DrawsShown, h, filter_shows_eq_nil h]
  exact .nil

theorem DrawsShown.append (h : r.DrawsShown t base range b flags nodes)
    (h' : r.DrawsShown t base range b flags nodes') :
    r.DrawsShown t base range b flags (nodes ++ nodes') := by
  rw [DrawsShown, List.filter_append, List.filterMap_append]
  exact Draws.append h h'

/-- Below an entry that is drawn as a leaf there are no other ones. -/
theorem filterMap_below_leaf (hs : (Row.top o).Below s) (hx : s.At n x zs)
    (hd : s.depth = base + d) (drawn : r.hides d = false)
    (leaf : (x.children.isEmpty || r.endsAt d) = true) :
    (List.range' (n + 1) (Item.countAll x.children)).filterMap
      (r.entry? (Tree.layOut o) base b) = [] := by
  have below := filterMap_items (r := r) (b := b) (d := d) x.children [] (hs.under hx) rfl
    (congrArg Nat.succ hd)
  rw [← isEmpty_pruneAll_succ drawn, List.isEmpty_iff] at leaf
  rw [Row.under, Item.countAll, Nat.add_zero, leaf] at below
  exact below

/-- The nodes of a row that is drawn are followed if they are not the last of the row. -/
theorem isEmpty_eq_not_followed (hs : (Row.top o).Below s) (hx : s.At n x zs)
    (hd : s.depth = base + d) (drawn : r.hides d = false)
    (inside : ∀ m, n ≤ m → m < s.stop → m ∈ range.rest) : zs.isEmpty =
      !decide ((Tree.layOut o).Followed (r.shown (Tree.layOut o) base range) n) := by
  have followed : (Tree.layOut o).Followed (r.shown (Tree.layOut o) base range) n ↔ zs ≠ [] := by
    refine Row.followed_iff hs hx (fun m => lt_size_of_mem_shown) fun m y ws hy lt => ?_
    have stop := Nat.lt_of_lt_of_le (Nat.lt_add_of_pos_right y.count_pos) hy.stop_le
    refine List.mem_filter.mpr ⟨inside m (Nat.le_of_lt lt) stop, ?_⟩
    rw [shows_of_at hs hy hd, drawn, Bool.not_false]
  cases zs <;> simp [followed]

mutual

/-- The entries of an item and of what is below it get their branches. -/
theorem drawsShown_item {s : Row} {n : Nat} {zs : List Item} {flags : List Bool} : (x : Item) →
    (Row.top o).Below s → s.At n x zs → s.depth = base + flags.length →
    (∀ m, n ≤ m → m < n + x.count → m ∈ range.rest) →
    (Tree.layOut o).Guides base (r.shown (Tree.layOut o) base range) n flags →
    (r.hides flags.length = false →
      (if flags.length = 0 then b else zs.isEmpty) =
        !decide ((Tree.layOut o).Followed (r.shown (Tree.layOut o) base range) n)) →
    r.DrawsShown (Tree.layOut o) base range b flags (List.range' n x.count)
  | ⟨text, url, children⟩, hs, hx, hd, inside, guides, last => by
      cases drawn : r.hides flags.length with
      | true =>
          refine drawsShown_of_eq_nil ?_
          rw [filterMap_item _ hs hx hd, if_pos drawn]
      | false =>
          have shown := shows_of_at (r := r) hs hx hd
          have head := entry?_eq (r := r) (b := b) hs hx hd
          rw [drawn, if_neg Bool.false_ne_true] at head
          rw [drawn, Bool.not_false] at shown
          rw [DrawsShown, Item.count, Nat.add_comm, List.range'_succ,
            List.filter_cons_of_pos shown, List.filterMap_cons_some head]
          refine .cons guides rfl (last drawn) ?_
          cases leaf : (children.isEmpty || r.endsAt flags.length) with
          | true =>
              have none := filterMap_below_leaf (b := b) hs hx hd drawn leaf
              exact ⟨filter_shows_eq_nil none, none⟩
          | false =>
              -- the row under `n` is one level further down, and guided by `n` as well
              have cell := (Row.stands_of_below hs).cell? hx
              have stop := Row.under_stop s n ⟨text, url, children⟩
              have length (flag : Bool) : (flags ++ [flag]).length = flags.length + 1 :=
                List.length_append
              have mem : n ∈ r.shown (Tree.layOut o) base range :=
                List.mem_filter.mpr ⟨inside n (Nat.le_refl n)
                  (Nat.lt_add_of_pos_right (Item.count_pos _)), shown⟩
              refine drawsShown_items children [] (hs.under hx) rfl ?_ (by simp) ?_ ?_ ?_
              · rw [length]
                exact congrArg Nat.succ hd
              · rw [length, hides_succ_eq drawn]
                exact (Bool.or_eq_false_iff.mp leaf).2
              · exact fun m after before => inside m (Nat.le_of_succ_le after) (stop ▸ before)
              · exact fun m hm =>
                  guides.child mem cell hd ((Row.mem_nodes_iff (hs.under hx)).mp hm).2

/-- The entries of the items of a row that is not at the top of the rendering get their
branches. -/
theorem drawsShown_items {s : Row} {flags : List Bool} : (xs ys : List Item) →
    (Row.top o).Below s → s.items = ys ++ xs → s.depth = base + flags.length →
    flags.length ≠ 0 → r.hides flags.length = false →
    (∀ m, s.start ≤ m → m < s.stop → m ∈ range.rest) →
    (∀ m ∈ s.nodes,
      (Tree.layOut o).Guides base (r.shown (Tree.layOut o) base range) m flags) →
    r.DrawsShown (Tree.layOut o) base range b flags
      (List.range' (s.start + Item.countAll ys) (Item.countAll xs))
  | [], _, _, _, _, _, _, _, _ => .nil
  | x :: xs, ys, hs, e, hd, pos, drawn, inside, guides => by
      have hx : s.At (s.start + Item.countAll ys) x xs := ⟨ys, e, rfl⟩
      have last := isEmpty_eq_not_followed hs hx hd drawn fun m le =>
        inside m (Nat.le_trans hx.start_le le)
      have head := drawsShown_item x hs hx hd
        (fun m le lt => inside m (Nat.le_trans hx.start_le le) (Nat.lt_of_lt_of_le lt hx.stop_le))
        (guides _ (Row.mem_nodes.mpr ⟨x, xs, hx⟩)) (fun _ => by rw [if_neg pos, last])
      have tail := drawsShown_items xs (ys ++ [x]) hs (by rw [e, List.append_assoc]; rfl) hd pos
        drawn inside guides
      rw [Item.countAll_append, Item.countAll, Item.countAll, Nat.add_zero, ← Nat.add_assoc] at tail
      rw [Item.countAll, ← List.range'_append_1]
      exact head.append tail

end

/-- The entries of the top-level nodes and of what is below them get their branches. -/
theorem draws_roots (r : Renderer) (xs ys : List Item) (e : o.items = ys ++ xs) :
    Draws (Tree.layOut o) 0 (r.shown (Tree.layOut o) 0 (Tree.layOut o).traverse) []
      ((List.range' (Item.countAll ys) (Item.countAll xs)).filter (r.shows (Tree.layOut o) 0))
      ((Item.starts (Item.countAll ys) xs).flatMap fun n =>
        r.subtreeEntries (Tree.layOut o) ((Tree.layOut o).nextSibling? n).isNone n) := by
  induction xs generalizing ys with
  | nil => exact .nil
  | cons x xs ih =>
      have hx : (Row.top o).At (Item.countAll ys) x xs := ⟨ys, e, (Nat.zero_add _).symm⟩
      have inside (m : Nat) (lt : m < (Row.top o).stop) : m ∈ (Tree.layOut o).traverse.rest := by
        rw [Tree.rest_traverse]
        exact List.mem_range'_1.mpr ⟨Nat.zero_le m, lt⟩
      have head : r.DrawsShown (Tree.layOut o) 0 (Tree.layOut o).traverse xs.isEmpty []
          (List.range' (Item.countAll ys) x.count) :=
        drawsShown_item x .refl hx rfl (fun m _ lt => inside m (Nat.lt_of_lt_of_le lt hx.stop_le))
          .nil fun drawn => isEmpty_eq_not_followed .refl hx rfl drawn fun m _ => inside m
      have tail := ih (ys ++ [x]) (by rw [e, List.append_assoc]; rfl)
      rw [Item.countAll_append, Item.countAll, Item.countAll, Nat.add_zero] at tail
      rw [Item.countAll, ← List.range'_append_1, List.filter_append, Item.starts,
        List.flatMap_cons, isNone_nextSibling? .refl hx]
      refine .append ?_ tail
      rw [subtreeEntries, (Row.stands_top o).cell? hx]
      simp only [Cursor.rest_add]
      exact head

/-- The entries of a node and of what is below it get their branches. -/
theorem draws_entries (r : Renderer) (hs : (Row.top o).Below s) (hx : s.At n x zs) :
    Draws (Tree.layOut o) s.depth (r.shown (Tree.layOut o) s.depth ⟨n, n + x.count⟩) []
      (r.shown (Tree.layOut o) s.depth ⟨n, n + x.count⟩) (r.entries (Tree.layOut o) n) := by
  have mem (m : Nat) : m ∈ (Cursor.mk n (n + x.count)).rest ↔ n ≤ m ∧ m < n + x.count := by
    rw [Cursor.rest_add]
    exact List.mem_range'_1
  have alone : ¬ (Tree.layOut o).Followed
      (r.shown (Tree.layOut o) s.depth ⟨n, n + x.count⟩) n :=
    Row.not_followed hs hx fun m hm => ((mem m).mp (List.mem_filter.mp hm).1).2
  have item : r.DrawsShown (Tree.layOut o) s.depth ⟨n, n + x.count⟩ true []
      (List.range' n x.count) :=
    drawsShown_item x hs hx rfl (fun m le lt => (mem m).mpr ⟨le, lt⟩) .nil fun _ => by simp [alone]
  rw [DrawsShown, ← Cursor.rest_add] at item
  rw [entries, subtreeEntries, (Row.stands_of_below hs).cell? hx]
  exact item

end

/-! ### Renderings -/

/-- The text of each entry, on a sink with whatever levels open. -/
theorem Draws.text (h : Draws t base ns [] nodes es) (levels : List Bool) {k : Nat}
    (hn : nodes[k]? = some n) (he : es[k]? = some e) :
    ∃ text, (Drawing.branches.run levels (es.map .entry)).2[k]? = some text ∧
      t.Branch base ns n e text := by
  obtain ⟨-, texts⟩ := h levels List.nil_prefix
  obtain ⟨text, ht⟩ : ∃ text, (Drawing.branches.run levels (es.map .entry)).2[k]? = some text := by
    have lt := (List.getElem?_eq_some_iff.mp he).1
    rw [← length_run_branches levels es] at lt
    exact ⟨_, List.getElem?_eq_getElem lt⟩
  have drawn : (es.zip (Drawing.branches.run levels (es.map .entry)).2)[k]? = some (e, text) :=
    List.getElem?_zip_eq_some.mpr ⟨he, ht⟩
  exact ⟨text, ht, List.forall₂_zip texts
    (List.mem_of_getElem? (i := k) (List.getElem?_zip_eq_some.mpr ⟨hn, drawn⟩))⟩

/-- Some entries are the shown nodes of a range in their order, and the drawing has for each of them
the branch of its node. -/
structure Branched (r : Renderer) (t : Tree) (base : Nat) (range : Cursor) (es : List Entry)
    (drawn : String) : Prop where
  rows : (r.shown t base range).map (r.row? t base) = es.map fun e => some e.row
  drawn : drawn = String.join (Drawing.branches.run [] (es.map .entry)).2
  text : ∀ (levels : List Bool) (k n : Nat) (e : Entry),
    (r.shown t base range)[k]? = some n → es[k]? = some e →
    ∃ text, (Drawing.branches.run levels (es.map .entry)).2[k]? = some text ∧
      t.Branch base (r.shown t base range) n e text

/-- The branches of a tree are right, and those of each node drawn as a tree of its own. -/
theorem branched_of_ofOutline {o : Outline} {t : Tree} (h : Tree.ofOutline o = .ok t)
    (r : Renderer) :
    r.Branched t 0 t.traverse (r.treeEntries t) (r.drawTree .tree t) ∧
      ∀ n c range, t.cell? n = some c → t.subtree? n = some range →
        r.Branched t c.depth range (r.entries t n) (r.draw .tree t n) := by
  obtain rfl := Tree.ofOutline_eq_ok h
  refine ⟨⟨(map_row_treeEntries r o).symm,
    (r.drawTree_eq .tree _).trans (Drawing.byLine_branches.draw_eq _), ?_⟩, ?_⟩
  · have draws := draws_roots (o := o) r o.items [] rfl
    intro levels k n e hn he
    rw [shown, Tree.rest_traverse] at hn
    exact draws.text levels hn he
  · intro n c range hc hr
    rw [Tree.subtree?, hc] at hr
    obtain rfl := Option.some.inj hr
    refine ⟨(map_row_subtreeEntries r true hc).symm,
      (r.draw_eq .tree _ n).trans (Drawing.byLine_branches.draw_eq _), ?_⟩
    obtain ⟨s, x, zs, hs, hx, rfl⟩ := Tree.exists_row hc
    exact fun levels k m e => (draws_entries r hs hx).text levels

/-- The last of three entries on the way down, in the tree and below its parent. -/
theorem branched_of_ofOutline_branched :
    Tree.ofOutline Tree.branched = .ok (Tree.layOut Tree.branched) ∧
      (Tree.layOut Tree.branched).Branch 0 [0, 1, 2, 3] 2 ⟨"C", "c", 2, true, true⟩
        "│       └── C (c)\n" ∧
      (Tree.layOut Tree.branched).Branch 1 [1, 2] 2 ⟨"C", "c", 1, true, true⟩
        "    └── C (c)\n" := by
  obtain ⟨tree, nodes⟩ := branched_of_ofOutline Tree.ofOutline_branched standard
  refine ⟨Tree.ofOutline_branched, ?_, ?_⟩
  · obtain ⟨text, ht, branch⟩ := tree.text [] 2 2 _ rfl rfl
    obtain rfl := Option.some.inj ht
    exact branch
  · obtain ⟨text, ht, branch⟩ := (nodes 1 _ _ rfl rfl).text [] 1 2 _ rfl rfl
    obtain rfl := Option.some.inj ht
    exact branch

end Renderer

end Sidebar
