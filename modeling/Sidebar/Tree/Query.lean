import Sidebar.Tree.Cursor

/-!
# Tree — looking up nodes

Nodes are found by their address, through the index, or by their page, the address up to its
first `#`.  From a node one gets to its neighbours and back to the item it came from.  Answers
that hold several nodes list them in reading order; ancestors are listed from the parent up, and
a trail from the top level down.
-/

namespace Sidebar

namespace Cell

/-- The address up to its first `#`. -/
def page (c : Cell) : String :=
  String.ofList (c.url.toList.takeWhile (· != '#'))

/-- The address after its first `#`. -/
def fragment? (c : Cell) : Option String :=
  match c.url.toList.dropWhile (· != '#') with
  | []     => none
  | _ :: s => some (String.ofList s)

/-- There is nothing below the node. -/
def isLeaf (c : Cell) : Bool := c.children.isEmpty

end Cell

namespace Tree

/-- The depth of the deepest node. -/
def maxDepth? (t : Tree) : Option Nat :=
  (t.cells.toList.map (·.depth)).max?

/-! ### By address -/

/-- The nodes with an address. -/
def findAll (t : Tree) (url : String) : List Nat := t.byUrl[url]?.getD []

/-- The first node with an address. -/
def find? (t : Tree) (url : String) : Option Nat := t.byUrl[url]?.bind List.head?

/-- The nodes whose address is on a page. -/
def findPage (t : Tree) (page : String) : List Nat :=
  t.traverse.rest.filter fun n => (t.cell? n).any fun c => c.page == page

/-- The addresses of more than one node, in the order of code points, with the number of their
nodes. -/
def shared (t : Tree) : List (String × Nat) :=
  (t.byUrl.toList.filter fun e => decide (1 < e.2.length)).map fun e => (e.1, e.2.length)

/-! ### Neighbours -/

/-- The parent of a node that is not at the top level. -/
def parent? (t : Tree) (n : Nat) : Option Nat := (t.cell? n).bind (·.parent)

/-- The nodes right below a node. -/
def children (t : Tree) (n : Nat) : List Nat := ((t.cell? n).map (·.children)).getD []

/-- Where the children of a parent end; the top level ends with the tree. -/
def levelStop (t : Tree) : Option Nat → Nat
  | none   => t.size
  | some p => ((t.cell? p).map (·.stop)).getD 0

/-- The next node below the same parent: the one at the end of the subtree, unless the parent's
subtree ends there too. -/
def nextSibling? (t : Tree) (n : Nat) : Option Nat :=
  (t.cell? n).bind fun c => if c.stop < t.levelStop c.parent then some c.stop else none

/-- The parent, its parent and so on; at most the first number of them. -/
def ancestorsUpTo (t : Tree) : Nat → Nat → List Nat
  | 0, _     => []
  | k + 1, n =>
    match t.parent? n with
    | none   => []
    | some p => p :: t.ancestorsUpTo k p

/-- The nodes above a node, from the parent up. -/
def ancestors (t : Tree) (n : Nat) : List Nat := t.ancestorsUpTo t.size n

/-- The nodes above the first node with an address, from the top level down. -/
def trail (t : Tree) (url : String) : List Nat :=
  match t.find? url with
  | none   => []
  | some n => (t.ancestors n).reverse

/-! ### Back to items -/

/-- The item of a node, with at most so many levels. -/
def itemUpTo (t : Tree) : Nat → Nat → Item
  | 0, _     => ⟨"", "", []⟩
  | k + 1, n =>
    match t.cell? n with
    | none   => ⟨"", "", []⟩
    | some c => ⟨c.text, c.url, c.children.map (t.itemUpTo k)⟩

/-- The item of a node. -/
def item (t : Tree) (n : Nat) : Item := t.itemUpTo t.size n

/-- The outline of a tree. -/
def toOutline (t : Tree) : Outline := ⟨t.roots.map t.item⟩

end Tree

end Sidebar
