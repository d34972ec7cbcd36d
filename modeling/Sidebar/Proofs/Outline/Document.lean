import Sidebar.Proofs.Outline.Listing
import Sidebar.Proofs.Outline.Shape
import Sidebar.Outline.Document

/-!
# Outline — the value of an outline

The value that is written of an outline has the shape of one.  Its nesting grows by two with each
level of items, from three for items at the top.

* `isOutline_toValue`, `plain_toValue`: the shape.
* `nesting_toValue_le`: a bound of the nesting is one of the depths.
-/

namespace Sidebar

open Sidebar.Shape

/-! ### Shape -/

mutual

theorem Item.isItem_toValue : (x : Item) → IsItem x.toValue x
  | ⟨text, url, []⟩ => .leaf (by simp [itemKeys]) (by simp) (by simp) (by simp)
  | ⟨text, url, x :: xs⟩ =>
      .branch (by simp [itemKeys]) (by simp) (by simp) (by simp)
        (.cons x.isItem_toValue (Item.areItems_toValues xs))

theorem Item.areItems_toValues : (xs : List Item) → AreItems (Item.toValues xs) xs
  | [] => .nil
  | x :: xs => .cons x.isItem_toValue (Item.areItems_toValues xs)

end

theorem Outline.isOutline_toValue (o : Outline) : IsOutline o.toValue o :=
  .record (Item.areItems_toValues o.items)

mutual

theorem Item.plain_toValue : (x : Item) → x.toValue.Plain
  | ⟨text, url, []⟩ => .record (by simp) (by simp [Value.Plain.string])
  | ⟨text, url, x :: xs⟩ => by
      have h : ∀ v ∈ x.toValue :: Item.toValues xs, v.Plain :=
        List.forall_mem_cons.mpr ⟨x.plain_toValue, Item.plain_toValues xs⟩
      exact .record (by simp) (by simp [Value.Plain.string, Value.Plain.sequence h])

theorem Item.plain_toValues : (xs : List Item) → ∀ v ∈ Item.toValues xs, v.Plain
  | [] => by simp [Item.toValues]
  | x :: xs => List.forall_mem_cons.mpr ⟨x.plain_toValue, Item.plain_toValues xs⟩

end

theorem Outline.plain_toValue (o : Outline) : o.toValue.Plain :=
  .record (by simp) (by simpa using .sequence (Item.plain_toValues o.items))

/-! ### Nesting -/

mutual

/-- Each level of items adds two levels of nesting, and an item without children one; so it makes
no difference whether the bound is one or two above an even number. -/
theorem Item.nesting_toValue_le {b : Nat} (hb : 1 ≤ b) (hb' : b ≤ 2) (m k : Nat) :
    (x : Item) → (x.toValue.nesting + 2 * k ≤ 2 * m + b ↔ ∀ row ∈ x.listing k, row.2.2 ≤ m)
  | ⟨text, url, []⟩ => by
      simp [Item.toValue, Item.listing, Item.listingAll, Value.nesting, Value.nestingOfFields]
      omega
  | ⟨text, url, x :: xs⟩ => by
      have hx := Item.nesting_toValue_le hb hb' m (k + 1) x
      have hxs := Item.nesting_toValues_le hb hb' m (k + 1) xs
      rw [Item.listing, List.forall_mem_cons, Item.listingAll, List.forall_mem_append, ← hx,
        ← hxs]
      simp only [Item.toValue, Value.nesting, Value.nestingOfFields, Value.nestingOfItems]
      constructor
      · intro h
        refine ⟨by omega, by omega, fun v hv => ?_⟩
        have := Value.nestingOfItems_le.mp (Nat.le_refl _) v hv
        omega
      · rintro ⟨hk, h, hv⟩
        have : Value.nestingOfItems (Item.toValues xs) ≤ 2 * m + b - 2 * (k + 1) :=
          Value.nestingOfItems_le.mpr fun v h => by have := hv v h; omega
        omega

theorem Item.nesting_toValues_le {b : Nat} (hb : 1 ≤ b) (hb' : b ≤ 2) (m k : Nat) :
    (xs : List Item) → ((∀ v ∈ Item.toValues xs, v.nesting + 2 * k ≤ 2 * m + b) ↔
      ∀ row ∈ Item.listingAll k xs, row.2.2 ≤ m)
  | [] => by simp [Item.toValues, Item.listingAll]
  | x :: xs => by
      rw [Item.toValues, Item.listingAll, List.forall_mem_cons, List.forall_mem_append,
        Item.nesting_toValue_le hb hb' m k x, Item.nesting_toValues_le hb hb' m k xs]

end

/-- An outline of depth at most `m` is nested at most `2 * m + 3` levels deep, and one that is
nested `2 * m + 4` levels deep at most is no deeper. -/
theorem Outline.nesting_toValue_le {b : Nat} (hb : 1 ≤ b) (hb' : b ≤ 2) (m : Nat) (o : Outline) :
    o.toValue.nesting ≤ 2 * m + (b + 2) ↔ o.Within m := by
  rw [Within, listing, ← Item.nesting_toValues_le hb hb' m 0 o.items]
  simp only [toValue, Value.nesting, Value.nestingOfFields, Nat.mul_zero, Nat.add_zero,
    ← Value.nestingOfItems_le]
  omega

end Sidebar
