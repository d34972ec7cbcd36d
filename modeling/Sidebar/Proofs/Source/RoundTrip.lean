import Sidebar.Proofs.Json.Writer
import Sidebar.Proofs.Outline.Document
import Sidebar.Proofs.Source.Agreement

/-!
# Source — written menus are read again

The reader of scripts allows one more level of nesting than that of JSON.  A written outline that
has items is nested an odd number of levels deep, so both draw the line at the same depth.

* `parse_toJson`: a written outline is read as itself in every format, up to the greatest depth.
* `parse_toJson_deep`: beyond it, no format reads the text.
-/

namespace Sidebar

open Sidebar.Text

/-- The greatest depth at which an item of a written outline can be read. -/
def Outline.maxDepth : Nat := 62

namespace Outline

theorem document_toJson (layout : Json.Layout) (o : Outline) :
    Json.Document (dropMark (o.toJson layout).toList) o.toValue := by
  have h := Json.document_render layout o.plain_toValue
  rw [toJson, h.dropMark_eq o.isOutline_toValue]
  exact h

theorem parse_toJson {o : Outline} (h : o.Within maxDepth) (layout : Json.Layout)
    (format : Format) : parse format (o.toJson layout) = .ok o :=
  parse_of_document (document_toJson layout o) o.isOutline_toValue format
    ((nesting_toValue_le (Nat.le_refl 1) (by decide) maxDepth o).mpr h)

theorem parse_toJson_deep {o : Outline} (h : ¬ o.Within maxDepth) (layout : Json.Layout)
    (format : Format) : ∃ e, parse format (o.toJson layout) = .error e ∧ e.isSyntax := by
  refine parse_of_document_deep (document_toJson layout o) o.isOutline_toValue format ?_
  exact Nat.lt_of_not_le (mt (nesting_toValue_le (by decide) (Nat.le_refl 2) maxDepth o).mp h)

/-- **Reading what was written**: up to the depth 62 an outline comes back from either layout in
every format; with a deeper item, the text is refused in every format. -/
theorem parse_toJson_of_depth (o : Outline) (layout : Json.Layout) (format : Format) :
    ((∀ row ∈ o.listing, row.2.2 ≤ 62) → parse format (o.toJson layout) = .ok o) ∧
    ((∃ row ∈ o.listing, 62 < row.2.2) →
      ∃ e, parse format (o.toJson layout) = .error e ∧ e.isSyntax) := by
  refine ⟨fun h => parse_toJson h layout format, ?_⟩
  rintro ⟨row, hr, hd⟩
  exact parse_toJson_deep (fun h => absurd (h row hr) (Nat.not_le_of_lt hd)) layout format

/-- Characters that are escaped come back from a script; sixty-four items, one in the other, do
not come back. -/
theorem parse_toJson_escaped :
    ((∀ row ∈ (Outline.mk [⟨"\"é\"", "\\\n\x01", [⟨"", "", []⟩]⟩]).listing, row.2.2 ≤ 62) ∧
      parse .script (toJson .indented ⟨[⟨"\"é\"", "\\\n\x01", [⟨"", "", []⟩]⟩]⟩) =
        .ok ⟨[⟨"\"é\"", "\\\n\x01", [⟨"", "", []⟩]⟩]⟩) ∧
    (∃ row ∈ (Outline.mk [Item.chain 63]).listing, 62 < row.2.2) ∧
      ∃ e, parse .auto (toJson .compact ⟨[Item.chain 63]⟩) = .error e ∧ e.isSyntax := by
  have deep : ∃ row ∈ (Outline.mk [Item.chain 63]).listing, 62 < row.2.2 := by decide +kernel
  exact ⟨⟨by decide, (parse_toJson_of_depth _ .indented .script).1 (by decide)⟩, deep,
    (parse_toJson_of_depth _ .compact .auto).2 deep⟩

end Outline

end Sidebar
