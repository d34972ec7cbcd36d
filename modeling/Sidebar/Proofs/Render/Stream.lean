import Sidebar.Proofs.Render.Forest
import Sidebar.Proofs.Tree.Coherent

/-!
# Render — what an entry says of those that follow

A drawing sees the entries of a rendering one by one and knows nothing of the tree.  The flags of
an entry, which are found in the tree, tell it what comes next: a leaf has nothing below it, any
other entry has, and the last entry of a level is followed by no other one of that level.

* `Entry.Foretells`: an entry is right about those that follow it.
* `Entry.Stream`: the entries begin at the top, and each of them is right.
* `Renderer.stream_of_ofOutline`: every rendering is a stream.
-/

namespace Sidebar

namespace Entry

/-! ### Streams -/

/-- The first entry that is not below a depth is above it, if there is such an entry. -/
def Rises (d : Nat) (es : List Entry) : Prop :=
  ∀ f, es.find? (fun f => f.depth ≤ d) = some f → f.depth < d

/-- An entry is right about those that follow it. -/
structure Foretells (e : Entry) (after : List Entry) : Prop where
  next : ∀ f ∈ after.head?, f.depth ≤ e.depth + 1 ∧ (f.depth = e.depth + 1 ↔ e.isLeaf = false)
  last : after = [] → e.isLeaf = true
  isLast : e.isLast = true ↔ Rises e.depth after

/-- The entries begin at the top, and each is right about those that follow it. -/
structure Stream (es : List Entry) : Prop where
  first : ∀ e ∈ es.head?, e.depth = 0
  foretells : ∀ before e after, es = before ++ e :: after → e.Foretells after

/-- Each entry of a list is right about those that follow it. -/
inductive Foretold : List Entry → Prop where
  | nil : Foretold []
  | cons {e : Entry} {es : List Entry} (h : e.Foretells es) (hs : Foretold es) : Foretold (e :: es)

variable {d : Nat} {e f : Entry} {es after : List Entry}

theorem Foretold.foretells (h : Foretold es) (before : List Entry)
    (he : es = before ++ e :: after) : e.Foretells after := by
  induction before generalizing es with
  | nil =>
      obtain rfl := he
      cases h with
      | cons h _ => exact h
  | cons b before ih =>
      obtain rfl := he
      cases h with
      | cons _ hs => exact ih hs rfl

/-- Where the next entry is not below a depth, it decides. -/
theorem rises_iff (le : ∀ f ∈ es.head?, f.depth ≤ d) :
    Rises d es ↔ ∀ f ∈ es.head?, f.depth < d := by
  cases es with
  | nil => exact ⟨nofun, nofun⟩
  | cons e es =>
      have found : (e :: es).find? (fun f => f.depth ≤ d) = some e :=
        List.find?_cons_of_pos (by simpa using le e rfl)
      rw [Rises, found]
      exact Iff.rfl

end Entry

/-! ### The entries of a forest -/

namespace Item

open Entry

variable {d m : Nat} {e : Entry} {after : List Entry}

mutual

/-- No entry is above the depth at which the drawing begins. -/
theorem le_depth_of_mem_entries {d : Nat} {b : Bool} : (x : Item) → e ∈ x.entries d b → d ≤ e.depth
  | ⟨text, url, children⟩, h => by
      rw [entries, List.mem_cons] at h
      rcases h with rfl | h
      · exact Nat.le_refl d
      · exact Nat.le_of_succ_le (le_depth_of_mem_entriesAll children h)

theorem le_depth_of_mem_entriesAll {d : Nat} : (xs : List Item) → e ∈ entriesAll d xs → d ≤ e.depth
  | [], h => nomatch h
  | x :: xs, h => by
      rw [entriesAll, List.mem_append] at h
      rcases h with h | h
      · exact le_depth_of_mem_entries x h
      · exact le_depth_of_mem_entriesAll xs h

end

/-- The entries of a row begin at its own depth. -/
theorem head?_entriesAll_append (d : Nat) (x : Item) (xs : List Item) (after : List Entry) :
    ∃ e, (entriesAll d (x :: xs) ++ after).head? = some e ∧ e.depth = d := by
  obtain ⟨text, url, children⟩ := x
  rw [entriesAll, entries]
  exact ⟨_, rfl, rfl⟩

/-- The entries of a row do not rise above it. -/
theorem rises_entriesAll_append (h : m < d) (xs : List Item) :
    Rises m (entriesAll d xs ++ after) ↔ Rises m after := by
  have none : (entriesAll d xs).find? (fun f => f.depth ≤ m) = none := by
    refine List.find?_eq_none.mpr fun e he => ?_
    have := le_depth_of_mem_entriesAll xs he
    simpa using Nat.lt_of_lt_of_le h this
  rw [Rises, Rises, List.find?_append, none, Option.none_or]

mutual

/-- The entries of an item are right about one another and about what follows them, which is the
next item of the row or something above. -/
theorem foretold_entries {d : Nat} {b : Bool} {after : List Entry} : (x : Item) →
    Foretold after → (∀ f ∈ after.head?, f.depth ≤ d) →
    (b = true ↔ ∀ f ∈ after.head?, f.depth < d) → Foretold (x.entries d b ++ after)
  | ⟨text, url, children⟩, h, le, last => by
      have below : Foretold (entriesAll (d + 1) children ++ after) :=
        foretold_entriesAll children h fun f hf => Nat.lt_succ_of_le (le f hf)
      rw [entries, List.cons_append]
      refine .cons ⟨fun f hf => ?_, fun e => ?_, ?_⟩ below
      · cases children with
        | nil =>
            have above : f.depth < d + 1 := Nat.lt_succ_of_le (le f hf)
            exact ⟨Nat.le_of_lt above, fun e => absurd e (Nat.ne_of_lt above), nofun⟩
        | cons y ys =>
            obtain ⟨g, hg, depth⟩ := head?_entriesAll_append (d + 1) y ys after
            obtain rfl := Option.some.inj (hg.symm.trans hf)
            exact ⟨Nat.le_of_eq depth, fun _ => rfl, fun _ => depth⟩
      · have : children = [] := entriesAll_eq_nil.mp (List.append_eq_nil_iff.mp e).1
        exact List.isEmpty_iff.mpr this
      · rw [rises_entriesAll_append (Nat.lt_succ_self d), rises_iff le]
        exact last

/-- The entries of a row are right about one another and about what follows them, which is above
the row. -/
theorem foretold_entriesAll {d : Nat} {after : List Entry} : (xs : List Item) →
    Foretold after → (∀ f ∈ after.head?, f.depth < d) → Foretold (entriesAll d xs ++ after)
  | [], h, _ => h
  | x :: xs, h, lt => by
      have rest := foretold_entriesAll xs h lt
      rw [entriesAll, List.append_assoc]
      -- what follows `x` is the next of the row, or what follows the row
      cases xs with
      | nil =>
          exact foretold_entries x rest (fun f hf => Nat.le_of_lt (lt f hf))
            ⟨fun _ => lt, fun _ => rfl⟩
      | cons y ys =>
          obtain ⟨g, hg, depth⟩ := head?_entriesAll_append d y ys after
          refine foretold_entries x rest (fun f hf => ?_) ⟨nofun, fun lt => ?_⟩
          · obtain rfl := Option.some.inj (hg.symm.trans hf)
            exact Nat.le_of_eq depth
          · exact absurd depth (Nat.ne_of_lt (lt g hg))

end

/-- The entries of a forest are a stream. -/
theorem stream_entriesAll (xs : List Item) : Stream (entriesAll 0 xs) where
  first e he := by
    cases xs with
    | nil => exact nomatch he
    | cons x xs =>
        obtain ⟨g, hg, depth⟩ := head?_entriesAll_append 0 x xs []
        rw [List.append_nil] at hg
        obtain rfl := Option.some.inj (hg.symm.trans he)
        exact depth
  foretells before e after he := by
    have h := foretold_entriesAll (d := 0) xs .nil nofun
    rw [List.append_nil] at h
    exact h.foretells before he

end Item

/-! ### Renderings -/

namespace Renderer

/-- The entries of a tree, and those of each of its nodes, begin at the top.  Each is followed at
most one level below, and there exactly if it is no leaf; the last is a leaf; and an entry is the
last of its level exactly if the first one after it that is not below it is above it.  These are the
entries that a recorder has kept after a walk through the tree or the node. -/
theorem stream_of_ofOutline {o : Outline} {t : Tree} (h : Tree.ofOutline o = .ok t)
    (r : Renderer) :
    (Entry.Stream (r.treeEntries t) ∧
        (Call.tree r t).record none = (true, ⟨r.treeEntries t, 1⟩)) ∧
      ∀ n < t.size, Entry.Stream (r.entries t n) ∧
        (Call.node r t n).record none = (true, ⟨r.entries t n, 1⟩) := by
  have stream {c : Call} {xs : List Item} (call : Rendering c xs) : Entry.Stream c.entries := by
    rw [call.entries_eq]
    exact Item.stream_entriesAll xs
  exact ⟨⟨stream (.tree h r), Call.record_none _⟩,
    fun n hn => ⟨stream (.node h r hn), Call.record_none _⟩⟩

/-- Two levels of a tree: `B` is drawn as a leaf, and `A` is not the last entry of its level.  Below
`B`, all of its levels. -/
theorem stream_of_ofOutline_branched :
    Tree.ofOutline Tree.branched = .ok (Tree.layOut Tree.branched) ∧
      1 < (Tree.layOut Tree.branched).size ∧
      Entry.Stream
        [⟨"A", "", 0, false, false⟩, ⟨"B", "b", 1, true, true⟩, ⟨"D", "d", 0, true, true⟩] ∧
      (Call.tree ⟨some 2, none, 2⟩ (Tree.layOut Tree.branched)).record none = (true,
        ⟨[⟨"A", "", 0, false, false⟩, ⟨"B", "b", 1, true, true⟩, ⟨"D", "d", 0, true, true⟩], 1⟩) ∧
      Entry.Stream [⟨"B", "b", 0, false, true⟩, ⟨"C", "c", 1, true, true⟩] ∧
      (Call.node .standard (Tree.layOut Tree.branched) 1).record none =
        (true, ⟨[⟨"B", "b", 0, false, true⟩, ⟨"C", "c", 1, true, true⟩], 1⟩) := by
  obtain ⟨⟨two, kept⟩, -⟩ := stream_of_ofOutline Tree.ofOutline_branched ⟨some 2, none, 2⟩
  obtain ⟨below, node⟩ := (stream_of_ofOutline Tree.ofOutline_branched standard).2 1 (by decide)
  exact ⟨Tree.ofOutline_branched, by decide, two, kept, below, node⟩

end Renderer

end Sidebar
