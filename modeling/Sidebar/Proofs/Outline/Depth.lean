import Sidebar.Proofs.Outline.Listing
import Sidebar.Proofs.Source.Mark
import Sidebar.Proofs.Source.Agreement

/-!
# Outline — depth

Nothing bounds the depth of an outline itself.  But an item stands in a record, which stands in a
sequence, so each level of items takes two levels of the value that was read, and these are
bounded.  A sequence at the root leaves room for one level more than the reader of JSON allows.

* `Shape.IsOutline.depth_lt`: the depth of an item, from the nesting of the value.
* `parse_depth_le`: the greatest depths that the formats leave.
-/

namespace Sidebar

/-! ### Values -/

namespace Shape

theorem two_le_nesting_of_mem {fs : List (String × Value)} {key : String} {vs : List Value}
    (h : (key, Value.sequence vs) ∈ fs) :
    Value.nestingOfItems vs + 2 ≤ (Value.record fs).nesting := by
  have part := Value.nestingOfFields_le.mp (Nat.le_refl _) _ h
  simp only [Value.nesting] at part ⊢
  exact Nat.succ_le_succ part

mutual

/-- An item that stands `k` deep, and what is below it: two levels of the value for each of
items, and one at the bottom. -/
theorem IsItem.depth_lt {k : Nat} : {v : Value} → {x : Item} → IsItem v x →
    ∀ row ∈ x.listing k, 2 * row.2.2 < v.nesting + 2 * k
  | .record fs, ⟨_, _, _⟩, .leaf .. => by
      intro row hrow
      obtain rfl := List.mem_singleton.mp hrow
      rw [Value.nesting]
      dsimp only
      omega
  | .record fs, ⟨_, _, _⟩, .branch _ _ _ hc h => by
      have below := AreItems.depth_lt (k := k + 1) h
      have outer := two_le_nesting_of_mem hc
      rw [Item.listing, List.forall_mem_cons]
      refine ⟨by dsimp only; omega, fun row hrow => ?_⟩
      have := below row hrow
      omega

theorem AreItems.depth_lt {k : Nat} : {vs : List Value} → {xs : List Item} → AreItems vs xs →
    ∀ row ∈ Item.listingAll k xs, 2 * row.2.2 < Value.nestingOfItems vs + 2 * k
  | _, _, .nil => nofun
  | _, _, .cons h t => by
      rw [Item.listingAll, List.forall_mem_append, Value.nestingOfItems]
      refine ⟨fun row hrow => ?_, fun row hrow => ?_⟩
      · have := h.depth_lt row hrow
        omega
      · have := t.depth_lt row hrow
        omega

end

/-- The root takes a level of its own, a sequence, or two, a record with a sequence in it. -/
theorem IsOutline.depth_lt {v : Value} {o : Outline} (h : IsOutline v o) :
    ∀ row ∈ o.listing, 2 * row.2.2 + 1 < v.nesting := by
  cases h with
  | sequence h =>
      intro row hrow
      have := h.depth_lt row hrow
      rw [Value.nesting]
      omega
  | empty => exact nofun
  | @record vs xs h =>
      intro row hrow
      have := h.depth_lt row hrow
      have := two_le_nesting_of_mem (List.mem_singleton_self ("children", Value.sequence vs))
      omega

end Shape

/-! ### Sources -/

namespace Format

open Text

/-- Where a source shows as JSON it begins with at most one mark, and shows so without it. -/
theorem resolve_unmarked {format : Format} {source : String}
    (h : format.resolve source = .json) : format.resolve (Outline.unmarked source) = .json := by
  cases format with
  | json => rfl
  | script => exact nomatch h
  | auto =>
      have none : marks (dropMark source.toList) = 0 := by
        refine Nat.eq_zero_of_not_pos fun left => ?_
        exact nomatch h.symm.trans (detectIn_marked left)
      have same : dropMark (Outline.unmarked source).toList = dropMark source.toList := by
        rw [Outline.toList_unmarked, dropMark_of_marks none]
      exact (detectIn_congr same).trans h

end Format

namespace Outline

variable {format : Format} {source : String} {o : Outline}

theorem parse_of_json (h : format.resolve (unmarked source) = .json) :
    parse format source = ofJson (unmarked source) := by
  unfold unmarked at h ⊢
  rw [parse, h]

theorem parse_of_ne_json (h : format.resolve (unmarked source) ≠ .json) :
    parse format source = ofScript (unmarked source) := by
  unfold unmarked at h ⊢
  rw [parse]
  cases e : format.resolve (String.ofList (Text.dropMark source.toList)) with
  | json => exact absurd e h
  | script => rfl
  | auto => rfl

/-- A menu that is read from a source is that of a value within the bounds of the reader. -/
theorem exists_value_of_parse (h : parse format source = .ok o) :
    ∃ v, Shape.IsOutline v o ∧ v.nesting ≤ Script.maxNesting ∧
      (format.resolve (unmarked source) = .json → v.nesting ≤ Json.maxNesting) := by
  by_cases shown : format.resolve (unmarked source) = .json
  · rw [parse_of_json shown] at h
    obtain ⟨v, -, hn, ho⟩ := ofJson_eq_ok.mp h
    exact ⟨v, ho, Nat.le_trans hn (by decide), fun _ => hn⟩
  · rw [parse_of_ne_json shown] at h
    obtain ⟨v, -, hn, ho⟩ := ofScript_eq_ok.mp h
    exact ⟨v, ho, hn, fun json => absurd json shown⟩

/-- No item that is read is deeper than 63, and none of JSON than 62. -/
theorem parse_depth_le (h : parse format source = .ok o) :
    o.Within 63 ∧ (format.resolve (unmarked source) = .json → o.Within 62) := by
  obtain ⟨v, ho, script, json⟩ := exists_value_of_parse h
  have deep := ho.depth_lt
  refine ⟨fun row hrow => ?_, fun shown row hrow => ?_⟩
  · have : v.nesting ≤ 128 := script
    have := deep row hrow
    omega
  · have : v.nesting ≤ 127 := json shown
    have := deep row hrow
    omega

/-- A JSON menu within the bound of scripts is read as a script. -/
theorem parse_script_of_document {v : Value} (h : Json.Document (Text.dropMark source.toList) v)
    (ho : Shape.IsOutline v o) (hn : v.nesting ≤ Script.maxNesting) :
    parse .script source = .ok o := by
  refine ofScript_eq_ok.mpr ⟨v, ?_, hn, ho⟩
  rw [String.toList_ofList, h.dropMark_eq ho]
  exact h.toScript (ho.plain h.distinct)

end Outline

end Sidebar
