import Sidebar.Source
import Sidebar.Tree.Builder

/-!
# Tree — trees from text

A source is read as an outline, from which a tree is built.
-/

namespace Sidebar

/-- The tree of a source in a given format. -/
def Tree.ofSource (format : Format) (source : String) : Except LoadFault Tree := do
  let outline ← Outline.parse format source
  (ofOutline outline).mapError .misfit

end Sidebar
