import Sidebar.Value

/-!
# Outline — nested menus

An outline is a menu as its source writes it: items with a label, an address and items of their
own.  An item is found by its path, the child indices that lead to it from the root.  Where an
outline is not what it should be, a `Misfit` names the first such place and the reason.

* `Item.count`, `Item.countAll`: the number of items, at every depth.
* `Item.unlabelled?`, `Item.unlabelledAmong?`: the first item, in reading order, whose label is
  empty.
-/

namespace Sidebar

/-- A menu item: its label, its address, which may be empty, and the items below it. -/
structure Item where
  text : String
  url : String
  children : List Item

/-- A menu without its root, which has neither label nor address. -/
structure Outline where
  items : List Item

/-! ### Paths -/

/-- The child indices from the root down to an item. -/
abbrev Path : Type := List Nat

/-- The step to the child at an index. -/
def Path.stepText (i : Nat) : String :=
  s!"children[{i}]"

/-- The text of a path; the root has a word of its own. -/
def Path.text : Path → String
  | []     => "root"
  | i :: p => String.intercalate "." ((i :: p).map Path.stepText)

/-! ### Misfits -/

/-- What is wrong with an item. -/
inductive Reason where
  | notARecord (found : Value.Kind)
  | missingKey (key : String)
  | notAString (key : String) (found : Value.Kind)
  | emptyText
  | unknownKey (key : String)
  | childrenNotASequence (found : Value.Kind)
deriving DecidableEq, Repr

/-- The wording of a reason. -/
def Reason.message : Reason → String
  | .notARecord found           => s!"expected a record, found {found.name}"
  | .missingKey key             => s!"missing required key `{key}`"
  | .notAString key found       => s!"`{key}` must be a string, found {found.name}"
  | .emptyText                  => "`text` cannot be empty"
  | .unknownKey key             => s!"unknown key `{key}`"
  | .childrenNotASequence found => s!"`children` must be a sequence, found {found.name}"

/-- A place and what is wrong there. -/
structure Misfit where
  path : Path
  reason : Reason
deriving DecidableEq, Repr

/-- The wording of a misfit. -/
def Misfit.message (m : Misfit) : String :=
  s!"Malformed navigation node at {m.path.text}: {m.reason.message}"

/-! ### Size -/

mutual

/-- The number of items at or below an item. -/
def Item.count : Item → Nat
  | ⟨_, _, children⟩ => 1 + Item.countAll children

/-- The number of items at or below the items of a list. -/
def Item.countAll : List Item → Nat
  | []      => 0
  | x :: xs => x.count + Item.countAll xs

end

/-- The number of items of an outline. -/
def Outline.count (o : Outline) : Nat :=
  Item.countAll o.items

theorem Item.count_pos : (x : Item) → 0 < x.count
  | ⟨_, _, _⟩ => by rw [Item.count]; omega

theorem Item.countAll_append (xs ys : List Item) :
    Item.countAll (xs ++ ys) = Item.countAll xs + Item.countAll ys := by
  induction xs with
  | nil => simp [Item.countAll]
  | cons x xs ih => simp [Item.countAll, ih, Nat.add_assoc]

/-! ### Labels -/

mutual

/-- The path of the first item, at or below the item at `path`, whose label is empty. -/
def Item.unlabelled? (path : Path) : Item → Option Path
  | ⟨text, _, children⟩ =>
    if text = "" then some path else Item.unlabelledAmong? path 0 children

/-- The path of the first item with an empty label, at or below the children of `path` from the
`i`-th on. -/
def Item.unlabelledAmong? (path : Path) (i : Nat) : List Item → Option Path
  | []      => none
  | x :: xs => (x.unlabelled? (path ++ [i])).or (Item.unlabelledAmong? path (i + 1) xs)

end

/-- The path of the first item of an outline whose label is empty. -/
def Outline.unlabelled? (o : Outline) : Option Path :=
  Item.unlabelledAmong? [] 0 o.items

end Sidebar
