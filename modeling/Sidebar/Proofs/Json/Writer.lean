import Sidebar.Proofs.Json.Value
import Sidebar.Proofs.Text.CodeUnit
import Sidebar.Json.Writer

/-!
# Json — what is written is in the grammar

`denotes_write`: the document that is written of a plain value denotes that value, in either
layout and whatever comes after it.
-/

namespace Sidebar.Json

open Sidebar.Text

/-! ### Strings -/

/-- The escape of a control character. -/
theorem fourDigits_control {c : Char} (h : c < ' ') :
    FourDigits ['0', '0', hexDigit (c.toNat / 16), hexDigit (c.toNat % 16)] c.toNat := by
  have hc : c.toNat < 32 := h
  have digits : c.toNat / 0x1000 = 0 ∧ c.toNat / 0x100 % 0x10 = 0 ∧
      c.toNat / 0x10 % 0x10 = c.toNat / 16 := by
    omega
  refine fourDigits_iff.mpr ⟨by omega, ?_⟩
  rw [digits.1, digits.2.1, digits.2.2]
  exact .cons (.inl rfl) (.cons (.inl rfl) (.cons (.inl rfl) (.cons (.inl rfl) .nil)))

theorem spelling_spell (c : Char) : Spelling Plain shortEscapes (spell c) c := by
  unfold spell
  split
  · exact .short (by decide)
  · exact .short (by decide)
  · exact .short (by decide)
  · exact .short (by decide)
  · exact .short (by decide)
  · exact .short (by decide)
  · exact .short (by decide)
  · rename_i hq hb _ _ _ _ _
    split
    · rename_i h
      simpa using Spelling.unit (fourDigits_control h) (not_isHigh_toNat c) (not_isLow_toNat c)
    · rename_i h
      exact .plain ⟨hq, hb, h⟩

theorem spells_spell (cs : List Char) : Spells Plain shortEscapes (cs.flatMap spell) cs := by
  induction cs with
  | nil => exact .nil
  | cons c cs ih =>
      rw [List.flatMap_cons]
      exact .cons (spelling_spell c) ih

theorem quoted_writeString (k : String) (r : List Char) : Quoted (writeString k ++ r) k r :=
  ⟨_, by simp [writeString], spells_spell k.toList⟩

/-! ### Layout -/

theorem space_lineBreak (layout : Layout) (level : Nat) (r : List Char) :
    Space (layout.lineBreak level ++ r) r := by
  refine ⟨layout.lineBreak level, ?_, rfl⟩
  cases layout with
  | compact => simp [Layout.lineBreak]
  | indented =>
      intro c hc
      rcases List.mem_cons.mp hc with rfl | hc
      · decide
      · obtain rfl := List.eq_of_mem_replicate hc
        decide

theorem field_write (layout : Layout) {k : String} {v : Value} {s r : List Char}
    (h : Denotes s v r) : Field (writeString k ++ layout.colon ++ s) (k, v) r := by
  rw [List.append_assoc]
  cases layout with
  | compact => exact .mk (quoted_writeString k _) (.refl _) (.refl _) h
  | indented =>
      have blank : Space (' ' :: s) s := ⟨[' '], List.all_eq_true.mp (by decide), rfl⟩
      exact .mk (quoted_writeString k _) (.refl _) blank h

/-! ### Values -/

mutual

theorem denotes_write (layout : Layout) (level : Nat) : (v : Value) → v.Plain → ∀ r,
    Denotes (write layout level v ++ r) v r
  | .string k, _, r => .string (quoted_writeString k r)
  | .sequence [], _, r => .sequence (.close (.refl _))
  | .sequence (v :: vs), .sequence p, r => by
      rw [List.forall_mem_cons] at p
      have e := space_lineBreak layout level (']' :: r)
      have hv := denotes_write layout (level + 1) v p.1
      have hvs := moreItems_write layout (level + 1) vs p.2 e
      simp only [write, List.cons_append, List.append_assoc]
      exact .sequence (.first (space_lineBreak layout (level + 1) _) (hv _) hvs)
  | .record [], _, r => .record (.close (.refl _)) (by simp)
  | .record ((k, v) :: fs), .record hd p, r => by
      rw [List.forall_mem_cons] at p
      have e := space_lineBreak layout level ('}' :: r)
      have hv := denotes_write layout (level + 1) v p.1
      have hfs := moreFields_write layout (level + 1) fs p.2 e
      have hf := space_lineBreak layout (level + 1)
      simp only [write, List.cons_append, List.append_assoc]
      refine .record (.first (hf _) ?_ hfs) hd
      simpa using field_write layout (hv _)

theorem moreItems_write (layout : Layout) (level : Nat) : (vs : List Value) →
    (∀ v ∈ vs, v.Plain) → ∀ {e r}, Space e (']' :: r) →
      MoreItems (writeItems layout level vs ++ e) vs r
  | [], _, e, r, g => .close g
  | v :: vs, p, e, r, g => by
      rw [List.forall_mem_cons] at p
      have hv := denotes_write layout level v p.1
      have hvs := moreItems_write layout level vs p.2 g
      simp only [writeItems, List.cons_append, List.append_assoc]
      exact .next (.refl _) (space_lineBreak layout level _) (hv _) hvs

theorem moreFields_write (layout : Layout) (level : Nat) : (fs : List (String × Value)) →
    (∀ f ∈ fs, f.2.Plain) → ∀ {e r}, Space e ('}' :: r) →
      MoreFields (writeFields layout level fs ++ e) fs r
  | [], _, e, r, g => .close g
  | (k, v) :: fs, p, e, r, g => by
      rw [List.forall_mem_cons] at p
      have hv := denotes_write layout level v p.1
      have hfs := moreFields_write layout level fs p.2 g
      simp only [writeFields, List.cons_append, List.append_assoc]
      refine .next (.refl _) (space_lineBreak layout level _) ?_ hfs
      simpa using field_write layout (hv _)

end

/-- What is written of a plain value is a document of it. -/
theorem document_render (layout : Layout) {v : Value} (h : v.Plain) :
    Document (render layout v).toList v := by
  have := denotes_write layout 0 v h []
  rw [List.append_nil] at this
  rw [render, String.toList_ofList]
  exact ⟨_, [], .refl _, this, .refl _⟩

end Sidebar.Json
