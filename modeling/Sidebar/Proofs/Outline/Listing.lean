import Sidebar.Outline.Basic

/-!
# Outline — listings

The listing of an outline has a row for every item, in reading order: the label, the address and
the depth, the number of items around it.
-/

namespace Sidebar

mutual

/-- The rows of an item that stands `depth` items deep. -/
def Item.listing (depth : Nat) : Item → List (String × String × Nat)
  | ⟨text, url, children⟩ => (text, url, depth) :: Item.listingAll (depth + 1) children

/-- The rows of some items, one after the other. -/
def Item.listingAll (depth : Nat) : List Item → List (String × String × Nat)
  | []      => []
  | x :: xs => x.listing depth ++ Item.listingAll depth xs

end

/-- The rows of an outline. -/
def Outline.listing (o : Outline) : List (String × String × Nat) :=
  Item.listingAll 0 o.items

/-- An item with so many more below it, one in the other. -/
def Item.chain : Nat → Item
  | 0     => ⟨"Deep", "", []⟩
  | n + 1 => ⟨"Deep", "", [chain n]⟩

/-- No item is deeper than `m`. -/
def Outline.Within (m : Nat) (o : Outline) : Prop :=
  ∀ row ∈ o.listing, row.2.2 ≤ m

instance (m : Nat) (o : Outline) : Decidable (o.Within m) :=
  inferInstanceAs (Decidable (∀ row ∈ o.listing, row.2.2 ≤ m))

end Sidebar
