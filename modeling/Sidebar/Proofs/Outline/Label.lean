import Sidebar.Proofs.Outline.Place

/-!
# Outline — the first item without a label

* `unlabelled?_eq_none`: no item is found exactly when every item has a label.
* `unlabelled?_eq_some`: the item found is the first without one, in reading order.
-/

namespace Sidebar

namespace Item

/-- The item has no label. -/
def Unlabelled (x : Item) : Prop := x.text = ""

/-- A search for the first unlabelled item finds it, or finds nothing where there is none. -/
def Searched (path : Path) (x : Item) : Option Path → Prop
  | none   => NoneAt children Unlabelled x
  | some q => ∃ p y, q = path ++ p ∧ FirstAt children Unlabelled x p y

/-- The same for a row of items, numbered from `i` on. -/
def SearchedFrom (path : Path) (i : Nat) (xs : List Item) : Option Path → Prop
  | none   => ∀ x ∈ xs, NoneAt children Unlabelled x
  | some q => ∃ p y, q = path ++ p ∧ FirstFrom children Unlabelled i xs p y

mutual

theorem searched_unlabelled? (path : Path) : (x : Item) → Searched path x (x.unlabelled? path)
  | ⟨text, url, xs⟩ => by
      rw [unlabelled?]
      by_cases h : text = ""
      · rw [if_pos h]
        exact ⟨[], _, (List.append_nil path).symm, .here h⟩
      · have row := searched_unlabelledAmong? path 0 xs
        rw [if_neg h]
        cases hq : unlabelledAmong? path 0 xs with
        | none =>
            rw [hq] at row
            exact .of_below h row
        | some q =>
            rw [hq] at row
            obtain ⟨p, y, e, first⟩ := row
            exact ⟨p, y, e, .down h first⟩

theorem searched_unlabelledAmong? (path : Path) (i : Nat) :
    (xs : List Item) → SearchedFrom path i xs (unlabelledAmong? path i xs)
  | [] => fun x hx => absurd hx List.not_mem_nil
  | x :: xs => by
      rw [unlabelledAmong?]
      have head := searched_unlabelled? (path ++ [i]) x
      cases hx : x.unlabelled? (path ++ [i]) with
      | some q =>
          rw [hx] at head
          obtain ⟨p, y, rfl, first⟩ := head
          exact ⟨i :: p, y, by rw [List.append_assoc]; rfl, .head first⟩
      | none =>
          rw [hx] at head
          have tail := searched_unlabelledAmong? path (i + 1) xs
          rw [Option.none_or]
          cases hq : unlabelledAmong? path (i + 1) xs with
          | none =>
              rw [hq] at tail
              exact List.forall_mem_cons.mpr ⟨head, tail⟩
          | some q =>
              rw [hq] at tail
              obtain ⟨p, y, e, first⟩ := tail
              exact ⟨p, y, e, .tail head first⟩

end

end Item

namespace Outline

/-- The item that a path leads to. -/
def item? (o : Outline) : Path → Option Item
  | []     => none
  | i :: p => o.items[i]?.bind fun x => Path.follow Item.children x p

/-- Every item has a label. -/
def Labelled (o : Outline) : Prop := ∀ p x, o.item? p = some x → x.text ≠ ""

/-- The item at `p` is the first without a label, in reading order. -/
def FirstUnlabelled (o : Outline) (p : Path) : Prop :=
  ∃ x, o.item? p = some x ∧ x.text = "" ∧ ∀ q y, q < p → o.item? q = some y → y.text ≠ ""

theorem FirstUnlabelled.not_labelled {o : Outline} {p : Path} (h : o.FirstUnlabelled p) :
    ¬ o.Labelled := by
  obtain ⟨x, hx, e, -⟩ := h
  exact fun all => all p x hx e

theorem FirstUnlabelled.unique {o : Outline} {p q : Path} (hp : o.FirstUnlabelled p)
    (hq : o.FirstUnlabelled q) : p = q := by
  obtain ⟨x, hx, ex, before⟩ := hp
  obtain ⟨y, hy, ey, before'⟩ := hq
  have lt : ¬ p < q := fun lt => before' p x lt hx ex
  have gt : ¬ q < p := fun gt => before q y gt hy ey
  exact Std.Trichotomous.trichotomous (r := (· < ·)) p q lt gt

/-- What the search of an outline gives. -/
theorem unlabelled?_spec (o : Outline) :
    (o.unlabelled? = none ∧ o.Labelled) ∨ ∃ p, o.unlabelled? = some p ∧ o.FirstUnlabelled p := by
  have row := Item.searched_unlabelledAmong? [] 0 o.items
  rw [unlabelled?]
  cases h : Item.unlabelledAmong? [] 0 o.items with
  | none =>
      rw [h] at row
      refine .inl ⟨rfl, fun p y hy => ?_⟩
      match p with
      | i :: p =>
          obtain ⟨x, hx, hy⟩ := Option.bind_eq_some_iff.mp hy
          exact row x (List.mem_of_getElem? hx) p y hy
  | some q =>
      rw [h] at row
      obtain ⟨p, y, rfl, first⟩ := row
      obtain ⟨j, x, r, rfl, hj, hr, -⟩ := first.exists
      refine .inr ⟨_, rfl, y, ?_, hr.isBad, fun q z lt hz => ?_⟩
      · rw [Nat.zero_add]
        exact Option.bind_eq_some_iff.mpr ⟨x, hj, hr.leads⟩
      · match q with
        | i :: q => exact first.before lt hz

theorem unlabelled?_eq_none {o : Outline} : o.unlabelled? = none ↔ o.Labelled := by
  rcases o.unlabelled?_spec with ⟨e, h⟩ | ⟨p, e, h⟩
  · simp [e, h]
  · simp [e, h.not_labelled]

theorem unlabelled?_eq_some {o : Outline} {p : Path} :
    o.unlabelled? = some p ↔ o.FirstUnlabelled p := by
  rcases o.unlabelled?_spec with ⟨e, h⟩ | ⟨q, e, h⟩
  · rw [e]
    exact ⟨nofun, fun hp => absurd h hp.not_labelled⟩
  · rw [e, Option.some.injEq]
    exact ⟨fun hq => hq ▸ h, h.unique⟩

end Outline

end Sidebar
