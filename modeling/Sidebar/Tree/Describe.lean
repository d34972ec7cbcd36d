import Sidebar.Text.Quoted
import Sidebar.Tree.Query

/-!
# Tree — describing a node

One line about a node for diagnostics: its number, label, address and depth.
-/

namespace Sidebar

/-- The line about a node. -/
def Tree.describe? (t : Tree) (n : Nat) : Option String :=
  (t.cell? n).map fun c =>
    s!"NodeRef \x7b id: {n}, text: {Text.quoted c.text}, url: {Text.quoted c.url}, " ++
      s!"depth: {c.depth} \x7d"

end Sidebar
