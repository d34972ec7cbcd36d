import Sidebar.Tree.Query

/-!
# Render — entries

A renderer turns a tree, or one node with what is below it, into entries in reading order.  An
entry is a node as a drawing sees it: its depth counts from the rendered nodes, its link has the
renderer's prefix, and its flags speak of the entries, not of the tree.

A link prefix applies to relative links only: not to an empty link, one that begins with `/` or
`#`, or one with a scheme.

* `Renderer.exists_entry?_of_mem_entries`, `Renderer.exists_cell_of_entry?`: the node of an entry.
-/

namespace Sidebar

/-- A node to be drawn. -/
structure Entry where
  text : String
  href : String
  depth : Nat
  isLeaf : Bool
  isLast : Bool
deriving DecidableEq, Repr

/-! ### Links -/

namespace Link

/-- A character that ends a scheme, or shows that there is none. -/
def isDelimiter (c : Char) : Bool :=
  c == ':' || c == '/' || c == '?' || c == '#'

/-- A character of a scheme after its first. -/
def isSchemePart (c : Char) : Bool :=
  c.isAlphanum || c == '+' || c == '.' || c == '-'

/-- The link begins with a scheme and a colon. -/
def hasScheme (url : List Char) : Bool :=
  let scheme := url.takeWhile (!isDelimiter ·)
  (url.dropWhile (!isDelimiter ·)).head? == some ':' &&
    scheme.head?.any Char.isAlpha && scheme.all isSchemePart

/-- The link is relative to the page it stands on. -/
def isRelative (url : List Char) : Bool :=
  match url with
  | []     => false
  | c :: _ => c != '/' && c != '#' && !hasScheme url

/-- The link behind a prefix, if it is relative. -/
def resolve (base : Option String) (url : String) : String :=
  match base with
  | none   => url
  | some p => if isRelative url.toList then p ++ url else url

end Link

/-! ### Renderers -/

/-- The indentation of a level where none is asked for. -/
def defaultIndent : Nat := 2

/-- What to draw and how: the number of levels, the prefix of relative links, and the
indentation of a level. -/
structure Renderer where
  maxDepth : Option Nat
  linkBase : Option String
  indent : Nat
deriving DecidableEq, Repr

namespace Renderer

/-- Everything, with links as they are. -/
def standard : Renderer := ⟨none, none, defaultIndent⟩

/-- The level is beyond the last one drawn. -/
def hides (r : Renderer) (depth : Nat) : Bool :=
  r.maxDepth.any fun levels => decide (levels ≤ depth)

/-- The level is the last one drawn. -/
def endsAt (r : Renderer) (depth : Nat) : Bool :=
  r.maxDepth.any fun levels => depth + 1 == levels

/-- The entry of node `n` below a node of depth `base`, unless it is hidden. -/
def entry? (r : Renderer) (t : Tree) (base : Nat) (topIsLast : Bool) (n : Nat) : Option Entry :=
  (t.cell? n).bind fun c =>
    let depth := c.depth - base
    if r.hides depth then none
    else some {
      text := c.text
      href := Link.resolve r.linkBase c.url
      depth := depth
      isLeaf := c.isLeaf || r.endsAt depth
      isLast := if depth = 0 then topIsLast else (t.nextSibling? n).isNone }

/-- The entries of a node and what is below it. -/
def subtreeEntries (r : Renderer) (t : Tree) (topIsLast : Bool) (n : Nat) : List Entry :=
  match t.cell? n with
  | none   => []
  | some c => (Cursor.mk n c.stop).rest.filterMap (r.entry? t c.depth topIsLast)

/-- The entries of a node as a tree of its own. -/
def entries (r : Renderer) (t : Tree) (n : Nat) : List Entry :=
  r.subtreeEntries t true n

/-- The entries of a whole tree. -/
def treeEntries (r : Renderer) (t : Tree) : List Entry :=
  t.roots.flatMap fun n => r.subtreeEntries t (t.nextSibling? n).isNone n

/-! ### The node of an entry -/

variable {r : Renderer} {t : Tree} {b : Bool} {n base : Nat} {e : Entry}

/-- What an entry has from its node. -/
theorem exists_cell_of_entry? (h : r.entry? t base b n = some e) :
    ∃ c, t.cell? n = some c ∧ e.text = c.text ∧ e.href = Link.resolve r.linkBase c.url ∧
      e.depth = c.depth - base := by
  obtain ⟨c, hc, he⟩ := Option.bind_eq_some_iff.mp h
  refine ⟨c, hc, ?_⟩
  by_cases hidden : r.hides (c.depth - base)
  · rw [if_pos hidden] at he
    cases he
  · rw [if_neg hidden] at he
    obtain rfl := Option.some.inj he
    exact ⟨rfl, rfl, rfl⟩

theorem exists_entry?_of_mem_subtreeEntries (h : e ∈ r.subtreeEntries t b n) :
    ∃ m base, r.entry? t base b m = some e := by
  rw [subtreeEntries] at h
  cases hc : t.cell? n with
  | none =>
      rw [hc] at h
      exact absurd h List.not_mem_nil
  | some c =>
      rw [hc] at h
      obtain ⟨m, -, he⟩ := List.mem_filterMap.mp h
      exact ⟨m, c.depth, he⟩

/-- Every entry of a tree or of a node is that of a node. -/
theorem exists_entry?_of_mem_entries (h : e ∈ r.treeEntries t ∨ ∃ n, e ∈ r.entries t n) :
    ∃ m base b, r.entry? t base b m = some e := by
  rcases h with h | ⟨n, h⟩
  · obtain ⟨n, -, h⟩ := List.mem_flatMap.mp h
    obtain ⟨m, base, he⟩ := exists_entry?_of_mem_subtreeEntries h
    exact ⟨m, base, _, he⟩
  · obtain ⟨m, base, he⟩ := exists_entry?_of_mem_subtreeEntries h
    exact ⟨m, base, true, he⟩

end Renderer

end Sidebar
