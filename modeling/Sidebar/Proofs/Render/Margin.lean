import Sidebar.Proofs.Config.Layer
import Sidebar.Proofs.Outline.Depth
import Sidebar.Proofs.Tree.Export
import Sidebar.Render.Markdown

/-!
# Render — margins

Two drawings put blanks in front of an entry, the more the deeper it is.  How deep it can be is
bounded by the readers, and how far a level is indented by the rules for configurations; so what is
drawn of a source never has a margin of more than 504 blanks.

* `Renderer.exists_cell_of_mem_entries`: no entry is deeper than the node it is made of.
* `Tree.depth_le_of_ofSource`: the greatest depths of the nodes.
* `Tree.margin_of_ofSource`: the greatest margins.
-/

namespace Sidebar

/-! ### Entries -/

namespace Renderer

variable {r : Renderer} {t : Tree} {e : Entry}

/-- An entry is made of a node, which is as deep or deeper. -/
theorem exists_cell_of_mem_entries (h : e ∈ r.treeEntries t ∨ ∃ n, e ∈ r.entries t n) :
    ∃ m c, t.cell? m = some c ∧ e.depth ≤ c.depth := by
  obtain ⟨m, base, b, he⟩ := exists_entry?_of_mem_entries h
  obtain ⟨c, hc, -, -, depth⟩ := exists_cell_of_entry? he
  exact ⟨m, c, hc, depth ▸ Nat.sub_le _ _⟩

end Renderer

/-! ### Trees -/

namespace Tree

variable {format : Format} {source : String} {t : Tree} {o : Outline}

theorem row_mem_listing {n : Nat} {c : Cell} (h : t.cell? n = some c) : c.row ∈ t.listing := by
  rw [listing_eq]
  refine List.mem_map_of_mem (List.mem_of_getElem? (i := n) ?_)
  rw [Array.getElem?_toList]
  exact h

/-- A node is no deeper than the items of the outline that was read. -/
theorem depth_le_of_ofSource (h : ofSource format source = .ok t) {n : Nat} {c : Cell}
    (hc : t.cell? n = some c) : c.depth ≤ 63 ∧
      (format.resolve (Outline.unmarked source) = .json → c.depth ≤ 62) := by
  obtain ⟨o, parsed, built⟩ := ofSource_eq_ok.mp h
  obtain rfl := ofOutline_eq_ok built
  have hrow := row_mem_listing hc
  rw [listing_layOut] at hrow
  obtain ⟨all, json⟩ := Outline.parse_depth_le parsed
  exact ⟨all _ hrow, fun shown => json shown _ hrow⟩

/-- No node of a tree that is read from a source is deeper than 63, and none than 62 where the
format is resolved to JSON, by the source or by what is read of it.  So where a valid configuration
has it drawn, or a part of it, the margin of an entry is at most 504 blanks wide, as lines and in a
bullet list; a text can be padded with up to 65535 of them. -/
theorem margin_of_ofSource (h : ofSource format source = .ok t) :
    (∀ n c, t.cell? n = some c → c.depth ≤ 63 ∧
      (format.resolve source = .json ∨ format.resolve (Outline.unmarked source) = .json →
        c.depth ≤ 62)) ∧
      ∀ config d : Config, config.validate = .ok d → ∀ e : Entry,
        (e ∈ d.renderer.treeEntries t ∨ ∃ n, e ∈ d.renderer.entries t n) →
        (∃ w, w = d.renderer.indent * e.depth ∧ w ≤ 504 ∧ w < 65535 ∧
          ((Drawing.lines d.renderer.indent).entry () e).2 = repeatText w " " ++ e.label) ∧
        ∃ w text, w = 2 * e.depth ∧ w ≤ 504 ∧ w < 65535 ∧
          (Drawing.markdown.entry () e).2 = repeatText w " " ++ "- " ++ text := by
  refine ⟨fun n c hc => ?_, fun config d valid e he => ?_⟩
  · obtain ⟨all, json⟩ := depth_le_of_ofSource h hc
    exact ⟨all, fun shown => json (shown.elim Format.resolve_unmarked id)⟩
  · obtain ⟨-, indent⟩ : 1 ≤ d.indent ∧ d.indent ≤ 8 := Config.valid_of_validate valid .indent
    obtain ⟨n, c, hc, le⟩ := Renderer.exists_cell_of_mem_entries he
    have depth : e.depth ≤ 63 := Nat.le_trans le (depth_le_of_ofSource h hc).1
    have lines : d.indent * e.depth ≤ 8 * 63 := Nat.mul_le_mul indent depth
    have bullets : 2 * e.depth ≤ 2 * 63 := Nat.mul_le_mul_left 2 depth
    refine ⟨⟨_, rfl, lines, Nat.lt_of_le_of_lt lines (by decide), rfl⟩, ?_⟩
    refine ⟨_, _, rfl, Nat.le_trans bullets (by decide), ?_, rfl⟩
    exact Nat.lt_of_le_of_lt bullets (by decide)

/-- The widest levels that a valid configuration can ask for. -/
def widest : Config := ⟨"menu.js", .script, .text, 8, none, none, none⟩

/-- Sixty-four items, one in the other: the last of them is at the greatest depth and has the
greatest margin. -/
theorem margin_of_ofSource_deep :
    ∃ t, ofSource .script (Json.render .compact deepValue) = .ok t ∧
      widest.validate = .ok widest ∧
      (∃ c, t.cell? 63 = some c ∧ c.depth = 63 ∧ c.depth ≤ 63) ∧
      ∃ e ∈ widest.renderer.treeEntries t, widest.renderer.indent * e.depth = 504 ∧
        ((Drawing.lines widest.renderer.indent).entry () e).2 = repeatText 504 " " ++ e.label := by
  have cell : (layOut ⟨[Item.chain 63]⟩).cell? 63 =
      some ⟨"Deep", "", 63, some 62, 64, []⟩ := by
    decide +kernel
  have drawn : ⟨"Deep", "", 63, true, true⟩ ∈
      widest.renderer.treeEntries (layOut ⟨[Item.chain 63]⟩) := by
    decide +kernel
  obtain ⟨depths, margins⟩ := margin_of_ofSource ofSource_deepValue
  obtain ⟨⟨w, rfl, -, -, text⟩, -⟩ := margins widest widest rfl _ (.inl drawn)
  exact ⟨_, ofSource_deepValue, rfl, ⟨_, cell, rfl, (depths _ _ cell).1⟩, _, drawn, rfl, text⟩

end Tree

end Sidebar
