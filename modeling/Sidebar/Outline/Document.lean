import Sidebar.Outline.Basic
import Sidebar.Json.Writer

/-!
# Outline — the document of an outline

An outline is written as a record with the single key `children`.  An item is a record with the
keys `text` and `url`, and `children` where it has any.
-/

namespace Sidebar

mutual

/-- The record of an item. -/
def Item.toValue : Item → Value
  | ⟨text, url, []⟩      => .record [("text", .string text), ("url", .string url)]
  | ⟨text, url, x :: xs⟩ =>
    .record [("text", .string text), ("url", .string url),
      ("children", .sequence (x.toValue :: Item.toValues xs))]

/-- The records of some items. -/
def Item.toValues : List Item → List Value
  | []      => []
  | x :: xs => x.toValue :: Item.toValues xs

end

theorem Item.toValues_eq_map (xs : List Item) : Item.toValues xs = xs.map Item.toValue := by
  induction xs with
  | nil => rfl
  | cons x xs ih => rw [Item.toValues, ih, List.map_cons]

/-- The record of an outline. -/
def Outline.toValue (o : Outline) : Value :=
  .record [("children", .sequence (Item.toValues o.items))]

/-- The JSON document of an item. -/
def Item.toJson (layout : Json.Layout) (x : Item) : String :=
  Json.render layout x.toValue

/-- The JSON document of an outline. -/
def Outline.toJson (layout : Json.Layout) (o : Outline) : String :=
  Json.render layout o.toValue

end Sidebar
