import Sidebar.Tree.Basic

/-!
# Tree — building a tree

A tree is built item by item, in reading order.  An item is put behind all others and entered under
its address and below its parent, and then those below it are added.  Only behind the last of them
is it known where the item ends.  An item with an empty label stops the building.
-/

namespace Sidebar

namespace Tree

/-- No node at all. -/
def empty : Tree := ⟨#[], [], ∅⟩

/-- The depth of the nodes right below a parent, or at the top level. -/
def depthBelow (t : Tree) : Option Nat → Nat
  | none   => 0
  | some p => ((t.cell? p).map (·.depth + 1)).getD 0

/-- The index with one more node under an address. -/
def enter (byUrl : Std.TreeMap String (List Nat)) (url : String) (n : Nat) :
    Std.TreeMap String (List Nat) :=
  byUrl.alter url fun ns => some (ns.getD [] ++ [n])

/-- The tree with one more node right below a parent, or at the top level. -/
def link (t : Tree) (n : Nat) : Option Nat → Tree
  | none   => { t with roots := t.roots ++ [n] }
  | some p => { t with cells := t.cells.modify p fun c => { c with children := c.children ++ [n] } }

/-- Puts a node behind all others.  It ends with itself, as long as there is nothing below it. -/
def push (t : Tree) (text url : String) (parent : Option Nat) : Tree :=
  let n := t.size
  let c : Cell := ⟨text, url, t.depthBelow parent, parent, n + 1, []⟩
  Tree.link ⟨t.cells.push c, t.roots, enter t.byUrl url n⟩ n parent

/-- Lets a node end where the tree does. -/
def close (t : Tree) (n : Nat) : Tree :=
  { t with cells := t.cells.modify n fun c => { c with stop := t.size } }

mutual

/-- Adds an item, which is found at `path`, and the items below it. -/
def addItem (t : Tree) (parent : Option Nat) (path : Path) : Item → Except Misfit Tree
  | ⟨text, url, children⟩ =>
    if text = "" then .error ⟨path, .emptyText⟩
    else do
      let t' ← addItems (t.push text url parent) (some t.size) path 0 children
      return t'.close t.size

/-- Adds items one after the other, the first of them the `i`-th one below `path`. -/
def addItems (t : Tree) (parent : Option Nat) (path : Path) (i : Nat) :
    List Item → Except Misfit Tree
  | []      => .ok t
  | x :: xs => do
    let t' ← addItem t parent (path ++ [i]) x
    addItems t' parent path (i + 1) xs

end

/-- The tree of an outline, or the first item whose label is empty. -/
def ofOutline (o : Outline) : Except Misfit Tree :=
  addItems empty none [] 0 o.items

end Tree

end Sidebar
