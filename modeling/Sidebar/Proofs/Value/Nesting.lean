import Sidebar.Value

/-!
# Value — nesting

The nesting of a value is the number of sequences and records around its innermost part, itself
included.  Both readers bound it.

* `Value.induction`: what holds of the scalars, and of a sequence or record whose parts have it,
  holds of every value.
* `Value.nesting_sequence_le`, `Value.nesting_record_le`: a bound one level down.
-/

namespace Sidebar.Value

/-! ### Induction on values -/

/-- Induction on a value, its parts taken as members. -/
@[elab_as_elim]
theorem induction {P : Value → Prop} (null : P .null) (boolean : ∀ b, P (.boolean b))
    (number : ∀ n, P (.number n)) (string : ∀ s, P (.string s))
    (sequence : ∀ vs, (∀ v ∈ vs, P v) → P (.sequence vs))
    (record : ∀ fs, (∀ f ∈ fs, P f.2) → P (.record fs)) : (v : Value) → P v
  | .null => null
  | .boolean b => boolean b
  | .number n => number n
  | .string s => string s
  | .sequence vs => sequence vs fun v _ =>
      induction null boolean number string sequence record v
  | .record fs => record fs fun f h =>
      have : sizeOf f.2 < 1 + sizeOf fs := by
        have := List.sizeOf_lt_of_mem h
        cases f
        simp at this ⊢
        omega
      induction null boolean number string sequence record f.2
termination_by v => sizeOf v

/-! ### Nesting -/

mutual

/-- How deep sequences and records are nested in a value. -/
def nesting : Value → Nat
  | .sequence vs => nestingOfItems vs + 1
  | .record fs   => nestingOfFields fs + 1
  | _            => 0

/-- The deepest nesting among some values. -/
def nestingOfItems : List Value → Nat
  | []      => 0
  | v :: vs => max v.nesting (nestingOfItems vs)

/-- The deepest nesting among the values of some fields. -/
def nestingOfFields : List (String × Value) → Nat
  | []           => 0
  | (_, v) :: fs => max v.nesting (nestingOfFields fs)

end

@[simp] theorem nesting_string (s : String) : (Value.string s).nesting = 0 := by
  simp only [nesting]

theorem nestingOfItems_le {vs : List Value} {n : Nat} :
    nestingOfItems vs ≤ n ↔ ∀ v ∈ vs, v.nesting ≤ n := by
  induction vs with
  | nil => simp [nestingOfItems]
  | cons v vs ih => rw [nestingOfItems, Nat.max_le, ih, List.forall_mem_cons]

theorem nestingOfFields_le {fs : List (String × Value)} {n : Nat} :
    nestingOfFields fs ≤ n ↔ ∀ f ∈ fs, f.2.nesting ≤ n := by
  induction fs with
  | nil => simp [nestingOfFields]
  | cons f fs ih => rw [nestingOfFields, Nat.max_le, ih, List.forall_mem_cons]

theorem nesting_sequence_le {vs : List Value} {n : Nat} :
    (Value.sequence vs).nesting ≤ n ↔ ∃ m, n = m + 1 ∧ ∀ v ∈ vs, v.nesting ≤ m := by
  simp only [nesting, ← nestingOfItems_le]
  constructor
  · intro h; exact ⟨n - 1, by omega, by omega⟩
  · rintro ⟨m, rfl, h⟩; omega

theorem nesting_record_le {fs : List (String × Value)} {n : Nat} :
    (Value.record fs).nesting ≤ n ↔ ∃ m, n = m + 1 ∧ ∀ f ∈ fs, f.2.nesting ≤ m := by
  simp only [nesting, ← nestingOfFields_le]
  constructor
  · intro h; exact ⟨n - 1, by omega, by omega⟩
  · rintro ⟨m, rfl, h⟩; omega

end Sidebar.Value
