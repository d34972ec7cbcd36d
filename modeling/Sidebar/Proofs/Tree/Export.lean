import Sidebar.Proofs.Outline.Depth
import Sidebar.Proofs.Source.RoundTrip
import Sidebar.Proofs.Tree.Build
import Sidebar.Tree.Source

/-!
# Tree — exported trees

A tree is exported as the JSON document of its outline.  Loading a script whose menu is a sequence
can give a tree one level deeper than any text of the export can be loaded with, since the export
puts a record around the sequence.

* `reload_iff`: a loaded tree can be exported and loaded again exactly when it has no such level.
* `export_unreadable`: a script that is loaded, but whose export is not.
-/

namespace Sidebar

open Sidebar.Text

namespace Tree

theorem ofSource_eq_ok {format : Format} {source : String} {t : Tree} :
    ofSource format source = .ok t ↔
      ∃ o, Outline.parse format source = .ok o ∧ ofOutline o = .ok t := by
  simp only [ofSource, bind_eq_ok, mapError_ok_iff]

/-- A loaded tree comes back from its export, up to the greatest depth. -/
theorem ofSource_export {format : Format} {source : String} {t : Tree}
    (h : ofSource format source = .ok t) (hd : t.toOutline.Within Outline.maxDepth)
    (layout : Json.Layout) (format' : Format) :
    ofSource format' (t.toOutline.toJson layout) = .ok t := by
  obtain ⟨o, -, ho⟩ := ofSource_eq_ok.mp h
  have e : t.toOutline = o := by rw [ofOutline_eq_ok ho, toOutline_layOut]
  rw [e] at hd ⊢
  exact ofSource_eq_ok.mpr ⟨o, Outline.parse_toJson hd layout format', ho⟩

theorem ofSource_export_deep {t : Tree} (h : ¬ t.toOutline.Within Outline.maxDepth)
    (layout : Json.Layout) (format : Format) :
    ∃ e, ofSource format (t.toOutline.toJson layout) = .error e ∧ e.isSyntax := by
  obtain ⟨e, he, hs⟩ := Outline.parse_toJson_deep h layout format
  exact ⟨e, by rw [ofSource, he, error_bind], hs⟩

theorem within_toOutline {format : Format} {source : String} {t : Tree}
    (h : ofSource format source = .ok t) (m : Nat) :
    t.toOutline.Within m ↔ ∀ row ∈ t.listing, row.2.2 ≤ m := by
  obtain ⟨o, -, ho⟩ := ofSource_eq_ok.mp h
  rw [ofOutline_eq_ok ho, toOutline_layOut, listing_layOut]
  rfl

/-! ### The deepest scripts -/

/-- Sixty-four items, one in the other, in a sequence that no record encloses. -/
def deepValue : Value :=
  .sequence [(Item.chain 63).toValue]

theorem isOutline_deepValue : Shape.IsOutline deepValue ⟨[Item.chain 63]⟩ :=
  .sequence (.cons (Item.chain 63).isItem_toValue .nil)

theorem document_deepValue :
    Json.Document (dropMark (Json.render .compact deepValue).toList) deepValue := by
  have hp : deepValue.Plain := .sequence (by simpa using (Item.chain 63).plain_toValue)
  have h := Json.document_render .compact hp
  rwa [h.dropMark_eq isOutline_deepValue]

theorem nesting_deepValue : deepValue.nesting = Script.maxNesting := by
  decide +kernel

theorem ofOutline_chain : ofOutline ⟨[Item.chain 63]⟩ = .ok (layOut ⟨[Item.chain 63]⟩) :=
  ofOutline_eq_layOut (by decide +kernel)

theorem ofSource_deepValue :
    ofSource .script (Json.render .compact deepValue) = .ok (layOut ⟨[Item.chain 63]⟩) :=
  ofSource_eq_ok.mpr ⟨_, Outline.parse_script_of_document document_deepValue isOutline_deepValue
    (Nat.le_of_eq nesting_deepValue), ofOutline_chain⟩

/-! ### Loading what was exported -/

/-- **Loading what was exported**: the export of a loaded tree, in either layout, is loaded again
exactly when no node is deeper than 62.  It then gives a tree with the same rows and the same
export; otherwise its text is refused. -/
theorem reload_iff {format : Format} {source : String} {t : Tree}
    (h : ofSource format source = .ok t) (layout : Json.Layout) :
    ((∀ row ∈ t.listing, row.2.2 ≤ 62) ↔
      ∃ t', ofSource .auto (t.toOutline.toJson layout) = .ok t' ∧ t'.listing = t.listing ∧
        t'.toOutline.toJson layout = t.toOutline.toJson layout) ∧
    ((∃ row ∈ t.listing, 62 < row.2.2) ↔
      ∃ e, ofSource .auto (t.toOutline.toJson layout) = .error e ∧ e.isSyntax) := by
  -- the text is read or refused, so each half follows from what is read of a shallow tree and
  -- what of a deep one
  have hw := within_toOutline h 62
  have shallow : (∀ row ∈ t.listing, row.2.2 ≤ 62) →
      ofSource .auto (t.toOutline.toJson layout) = .ok t :=
    fun hd => ofSource_export h (hw.mpr hd) layout .auto
  have deep : (¬ ∀ row ∈ t.listing, row.2.2 ≤ 62) →
      ∃ e, ofSource .auto (t.toOutline.toJson layout) = .error e ∧ e.isSyntax :=
    fun hd => ofSource_export_deep (mt hw.mp hd) layout .auto
  refine ⟨⟨fun hd => ⟨t, shallow hd, rfl, rfl⟩, ?_⟩, ⟨?_, ?_⟩⟩
  · rintro ⟨t', ht', -, -⟩
    refine Decidable.byContradiction fun hd => ?_
    obtain ⟨e, he, -⟩ := deep hd
    exact nomatch he.symm.trans ht'
  · rintro ⟨row, hr, hd⟩
    exact deep fun h => absurd (h row hr) (Nat.not_le_of_lt hd)
  · rintro ⟨e, he, -⟩
    refine Decidable.byContradiction fun hd => ?_
    have hd' : ∀ row ∈ t.listing, row.2.2 ≤ 62 := fun row hr =>
      Nat.le_of_not_lt fun h => hd ⟨row, hr, h⟩
    exact nomatch he.symm.trans (shallow hd')

/-- A script with items of three levels, in no order of their labels. -/
def nestedScript : String :=
  "var menu = [\x7btext: 'B', url: '', children: [\x7btext: 'D', url: 'd'\x7d, " ++
    "\x7btext: 'A', url: '', children: [\x7btext: 'C', url: 'c'\x7d]\x7d]\x7d, " ++
    "\x7btext: 'A', url: 'a'\x7d];"

/-- Its items come back from their export as they were, and the last of sixty-four items, one in the
other, is too deep for that. -/
theorem reload_iff_nested :
    (∃ t, ofSource .auto nestedScript = .ok t ∧
      t.listing = [("B", "", 0), ("D", "d", 1), ("A", "", 1), ("C", "c", 2), ("A", "a", 0)] ∧
      ∃ t', ofSource .auto (t.toOutline.toJson .indented) = .ok t' ∧ t'.listing = t.listing ∧
        t'.toOutline.toJson .indented = t.toOutline.toJson .indented) ∧
    ∃ t, ofSource .script (Json.render .compact deepValue) = .ok t ∧
      (∃ row ∈ t.listing, 62 < row.2.2) ∧
      ∃ e, ofSource .auto (t.toOutline.toJson .indented) = .error e ∧ e.isSyntax := by
  constructor
  · have rows : (ofSource .auto nestedScript).toOption.map listing =
        some [("B", "", 0), ("D", "d", 1), ("A", "", 1), ("C", "c", 2), ("A", "a", 0)] := by
      decide +kernel
    obtain ⟨t, ht, hl⟩ := toOption_map_eq_some.mp rows
    exact ⟨t, ht, hl, (reload_iff ht .indented).1.mp (by rw [hl]; decide)⟩
  · have last : ∃ row ∈ (layOut ⟨[Item.chain 63]⟩).listing, 62 < row.2.2 := by decide +kernel
    exact ⟨_, ofSource_deepValue, last, (reload_iff ofSource_deepValue .indented).2.mp last⟩

/-- A script that is loaded, but whose export is not. -/
theorem export_unreadable : ∃ t, ofSource .script (Json.render .compact deepValue) = .ok t ∧
    ∀ layout t', ofSource .auto (t.toOutline.toJson layout) ≠ .ok t' := by
  have deep : ¬ (layOut ⟨[Item.chain 63]⟩).toOutline.Within Outline.maxDepth := by
    rw [toOutline_layOut]
    decide +kernel
  refine ⟨_, ofSource_deepValue, fun layout t' ht => ?_⟩
  obtain ⟨e, he, -⟩ := ofSource_export_deep deep layout .auto
  exact nomatch he.symm.trans ht

end Tree

end Sidebar
