import Std.Data.TreeMap
import Sidebar.Outline.Basic

/-!
# Tree — menus in reading order

A tree holds the items of an outline in one array of cells, in reading order, so that a node is
the index of its cell and the nodes at or below it are the indices up to its `stop`.  A cell also
knows its depth, its parent and its children, and the index of a tree the nodes of each address.
-/

namespace Sidebar

/-- An item at its place in a tree. -/
structure Cell where
  text : String
  url : String
  depth : Nat
  parent : Option Nat
  stop : Nat
  children : List Nat
deriving DecidableEq, Repr

/-- A menu as an array of cells in reading order, with its top-level nodes and the nodes of each
address. -/
structure Tree where
  cells : Array Cell
  roots : List Nat
  byUrl : Std.TreeMap String (List Nat)

namespace Tree

/-- The number of nodes. -/
def size (t : Tree) : Nat := t.cells.size

/-- There is no node. -/
def isEmpty (t : Tree) : Bool := t.cells.isEmpty

/-- The cell of a node. -/
def cell? (t : Tree) (n : Nat) : Option Cell := t.cells[n]?

end Tree

end Sidebar
