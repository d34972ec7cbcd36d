import Mathlib.Algebra.GroupWithZero.Nat
import Mathlib.Data.List.Forall2
import Sidebar.Proofs.Tree.Layout
import Sidebar.Render.Style

/-!
# Render — lines

Three styles end what they write for an entry with a line break.  A label or a link may have line
breaks of its own, which no style takes out: the text has a line for each of them on top of one for
each entry, and so it is one line for each entry only where there are none.

* `Lines`: the lines of a text.
* `exists_lines_of_closes`: how many lines some texts have together.
* `Entry.Writes`: the line breaks of a text that is written for an entry.
* `Drawing.ByLine`: a drawing that ends each of its texts with a line break.
* `Renderer.lines_of_draw`: how many lines are drawn, and when they are one for each entry.
-/

namespace Sidebar

/-! ### Lines -/

/-- The text ends with a line break and has no other. -/
def IsLine (s : String) : Prop := ∃ w, '\n' ∉ w ∧ s.toList = w ++ ['\n']

/-- The text is made of some lines. -/
structure Lines (text : String) (ls : List String) : Prop where
  join : String.join ls = text
  isLine : ∀ l ∈ ls, IsLine l

/-- The number of line breaks. -/
def breaks (s : String) : Nat := s.toList.count '\n'

theorem breaks_append (s t : String) : breaks (s ++ t) = breaks s + breaks t := by
  rw [breaks, String.toList_append, List.count_append]
  rfl

theorem breaks_eq_zero {s : String} : breaks s = 0 ↔ '\n' ∉ s.toList := List.count_eq_zero

theorem IsLine.breaks_eq {s : String} (h : IsLine s) : breaks s = 1 := by
  obtain ⟨w, hw, e⟩ := h
  rw [breaks, e, List.count_append, List.count_eq_zero.mpr hw]
  rfl

/-- A text has as many lines as line breaks. -/
theorem Lines.length_eq {text : String} {ls : List String} (h : Lines text ls) :
    ls.length = breaks text := by
  obtain ⟨rfl, h⟩ := h
  induction ls with
  | nil => rfl
  | cons l ls ih =>
      obtain ⟨hl, hls⟩ := List.forall_mem_cons.mp h
      rw [String.join_cons, breaks_append, hl.breaks_eq, ← ih hls, List.length_cons, Nat.add_comm]

theorem Lines.append {s t : String} {ks ls : List String} (hs : Lines s ks) (ht : Lines t ls) :
    Lines (s ++ t) (ks ++ ls) where
  join := by rw [String.join_append, hs.join, ht.join]
  isLine l hl := (List.mem_append.mp hl).elim (hs.isLine l) (ht.isLine l)

theorem lines_singleton {s : String} (h : IsLine s) : Lines s [s] where
  join := by rw [String.join_cons, String.join_nil, String.append_empty]
  isLine l hl := List.mem_singleton.mp hl ▸ h

/-- A character in front of the first line. -/
theorem IsLine.cons {c : Char} {s : String} (hc : c ≠ '\n') (h : IsLine s) :
    IsLine (String.singleton c ++ s) := by
  obtain ⟨w, hw, e⟩ := h
  refine ⟨c :: w, ?_, ?_⟩
  · rw [List.mem_cons, not_or]
    exact ⟨Ne.symm hc, hw⟩
  · rw [String.toList_append, String.toList_singleton, e]
    rfl

/-- A text that ends with a line break is made of lines. -/
theorem exists_lines (w : List Char) : ∃ ls, Lines (String.ofList (w ++ ['\n'])) ls := by
  induction w with
  | nil => exact ⟨_, lines_singleton ⟨[], List.not_mem_nil, by simp⟩⟩
  | cons c w ih =>
      obtain ⟨ls, h⟩ := ih
      have text : String.ofList (c :: w ++ ['\n']) =
          String.singleton c ++ String.ofList (w ++ ['\n']) :=
        String.toList_injective (by simp)
      rw [text]
      by_cases hc : c = '\n'
      · exact ⟨_, (lines_singleton ⟨[], List.not_mem_nil, by simp [hc]⟩).append h⟩
      · -- the character belongs to the first line, which there is
        cases ls with
        | nil =>
            have := h.length_eq
            simp [breaks] at this
        | cons l ls =>
            obtain ⟨hl, hls⟩ := List.forall_mem_cons.mp h.isLine
            refine ⟨(String.singleton c ++ l) :: ls, ?_, List.forall_mem_cons.mpr ⟨hl.cons hc, hls⟩⟩
            rw [String.join_cons, String.append_assoc, ← String.join_cons, h.join]

/-- The text ends with a line break, and in front of it has some number of others. -/
def Closes (n : Nat) (s : String) : Prop := ∃ w, s.toList = w ++ ['\n'] ∧ w.count '\n' = n

theorem Closes.exists_lines {n : Nat} {s : String} (h : Closes n s) :
    ∃ ls, Lines s ls ∧ ls.length = n + 1 := by
  obtain ⟨w, hw, count⟩ := h
  obtain ⟨ls, h⟩ := Sidebar.exists_lines w
  rw [← hw, String.ofList_toList] at h
  refine ⟨ls, h, ?_⟩
  rw [h.length_eq, breaks, hw, List.count_append, count]
  rfl

/-- Texts that end with line breaks, one after the other, have a line each and one more for each
line break in front of the last. -/
theorem exists_lines_of_closes {ns : List Nat} {ss : List String}
    (h : List.Forall₂ Closes ns ss) :
    ∃ ls, Lines (String.join ss) ls ∧ ls.length = ns.length + ns.sum := by
  induction h with
  | nil => exact ⟨[], ⟨rfl, by simp⟩, rfl⟩
  | cons h _ ih =>
      obtain ⟨ks, hk, lk⟩ := h.exists_lines
      obtain ⟨ls, hl, ll⟩ := ih
      refine ⟨ks ++ ls, String.join_cons ▸ hk.append hl, ?_⟩
      rw [List.length_append, lk, ll, List.length_cons, List.sum_cons]
      omega

/-! ### The text of an entry -/

namespace Entry

/-- The line breaks in the label and the link. -/
def breaks (e : Entry) : Nat := Sidebar.breaks e.text + Sidebar.breaks e.href

theorem breaks_eq_zero {e : Entry} :
    e.breaks = 0 ↔ '\n' ∉ e.text.toList ∧ '\n' ∉ e.href.toList := by
  rw [breaks, Nat.add_eq_zero_iff, Sidebar.breaks_eq_zero, Sidebar.breaks_eq_zero]

/-- The text ends with a line break, and in front of it has the line breaks of the entry. -/
def Writes (e : Entry) (text : String) : Prop :=
  ∃ w, text.toList = w ++ ['\n'] ∧ w.count '\n' = e.breaks

variable {e : Entry} {text : String}

theorem Writes.prepend (h : e.Writes text) {s : String} (hs : Sidebar.breaks s = 0) :
    e.Writes (s ++ text) := by
  obtain ⟨w, hw, count⟩ := h
  refine ⟨s.toList ++ w, ?_, ?_⟩
  · rw [String.toList_append, hw, List.append_assoc]
  · rw [Sidebar.breaks] at hs
    rw [List.count_append, hs, count, Nat.zero_add]

theorem Writes.isLine_iff (h : e.Writes text) : IsLine text ↔ e.breaks = 0 := by
  obtain ⟨w, hw, count⟩ := h
  constructor
  · rintro ⟨v, hv, e⟩
    obtain rfl := List.append_cancel_right (hw.symm.trans e)
    rw [← count, List.count_eq_zero]
    exact hv
  · intro none
    exact ⟨w, List.count_eq_zero.mp (count.trans none), hw⟩

/-- The texts of some entries, one after the other. -/
theorem exists_lines_join {es : List Entry} {texts : List String}
    (h : List.Forall₂ Writes es texts) : ∃ ls, Lines (String.join texts) ls ∧
      ls.length = es.length + (es.map breaks).sum := by
  have closes : List.Forall₂ Closes (es.map breaks) texts := List.forall₂_map_left_iff.mpr h
  obtain ⟨ls, hl, count⟩ := exists_lines_of_closes closes
  rw [List.length_map] at count
  exact ⟨ls, hl, count⟩

/-- They are lines themselves where the entries have no line breaks. -/
theorem lines_join_iff {es : List Entry} {texts : List String}
    (h : List.Forall₂ Writes es texts) :
    Lines (String.join texts) texts ↔ ∀ e ∈ es, e.breaks = 0 := by
  have all : (∀ l ∈ texts, IsLine l) ↔ ∀ e ∈ es, e.breaks = 0 := by
    induction h with
    | nil => simp
    | cons h _ ih => rw [List.forall_mem_cons, List.forall_mem_cons, h.isLine_iff, ih]
  rw [← all]
  exact ⟨fun h => h.isLine, fun h => ⟨rfl, h⟩⟩

end Entry

/-! ### Drawings -/

theorem count_flatMap_break {f : Char → List Char}
    (h : ∀ c, (f c).count '\n' = [c].count '\n') (s : List Char) :
    (s.flatMap f).count '\n' = s.count '\n' := by
  induction s with
  | nil => rfl
  | cons c s ih => rw [List.flatMap_cons, List.count_append, ih, h, ← List.count_append]; rfl

theorem Markdown.breaks_label (s : String) : breaks (label s) = breaks s := by
  rw [breaks, label, String.toList_ofList]
  refine count_flatMap_break (fun c => ?_) s.toList
  rw [spellLabel]
  split
  · exact List.count_cons_of_ne (by decide)
  · rfl

theorem Markdown.breaks_link (s : String) : breaks (link s) = breaks s := by
  rw [breaks, link, String.toList_ofList]
  refine count_flatMap_break (fun c => ?_) s.toList
  rw [spellLink]
  split
  · rename_i blank
    subst blank
    decide
  split
  · exact List.count_cons_of_ne (by decide)
  · rfl

theorem breaks_join_eq_zero {ss : List String} (h : ∀ s ∈ ss, breaks s = 0) :
    breaks (String.join ss) = 0 := by
  induction ss with
  | nil => rfl
  | cons s ss ih =>
      obtain ⟨hs, hss⟩ := List.forall_mem_cons.mp h
      rw [String.join_cons, breaks_append, hs, ih hss]

theorem breaks_blanks (n : Nat) : breaks (repeatText n " ") = 0 :=
  breaks_join_eq_zero fun s hs => by rw [List.eq_of_mem_replicate hs]; decide

/-- A text with the line breaks of an entry, and one more behind it. -/
theorem Entry.writes_of_breaks {e : Entry} {text : String} (h : Sidebar.breaks text = e.breaks) :
    e.Writes (text ++ "\n") :=
  ⟨text.toList, String.toList_append, h⟩

theorem Entry.writes_label (e : Entry) : e.Writes e.label := by
  by_cases h : e.href = ""
  · rw [label, if_pos h]
    refine writes_of_breaks ?_
    rw [breaks, h]
    rfl
  · have close : ")\n" = ")" ++ "\n" := by decide
    have none : Sidebar.breaks " (" = 0 ∧ Sidebar.breaks ")" = 0 := by decide
    rw [label, if_neg h, close, ← String.append_assoc]
    refine writes_of_breaks ?_
    simp only [breaks_append, none, breaks, Nat.add_zero]

namespace Drawing

variable {σ : Type}

/-- What the drawing writes for an entry ends with a line break and has no others than those of the
entry, and at the end it writes nothing. -/
structure ByLine (d : Drawing σ) : Prop where
  writes : ∀ s (e : Entry), e.Writes (d.entry s e).2
  ends : ∀ s, (d.finish s).2 = ""

theorem ByLine.run {d : Drawing σ} (h : d.ByLine) (s : σ) (es : List Entry) :
    List.Forall₂ Entry.Writes es (d.run s (es.map .entry)).2 := by
  induction es generalizing s with
  | nil => exact .nil
  | cons e es ih => exact .cons (h.writes s e) (ih _)

theorem ByLine.draw_eq {d : Drawing σ} (h : d.ByLine) (es : List Entry) :
    d.draw es = String.join (d.run d.start (es.map .entry)).2 := by
  have last (s : σ) : (d.run s [.finish]).2 = [""] := congrArg (· :: []) (h.ends s)
  rw [draw, Mark.delivery, run_append, String.join_append, last]
  exact String.append_empty

theorem byLine_lines (indent : Nat) : (lines indent).ByLine where
  writes _ e := e.writes_label.prepend (breaks_blanks _)
  ends _ := rfl

theorem byLine_branches : branches.ByLine where
  writes levels e := by
    refine e.writes_label.prepend ?_
    rw [breaks_append, breaks_join_eq_zero]
    · cases e.isLast <;> decide
    · intro s hs
      obtain ⟨more, -, rfl⟩ := List.mem_map.mp hs
      cases more <;> decide
  ends _ := rfl

theorem byLine_markdown : markdown.ByLine where
  writes _ e := by
    have bullet : breaks (repeatText (2 * e.depth) " " ++ "- ") = 0 := by
      rw [breaks_append, breaks_blanks]
      decide
    refine Entry.Writes.prepend ?_ bullet
    by_cases h : e.href = ""
    · rw [if_pos h]
      refine Entry.writes_of_breaks ?_
      rw [Markdown.breaks_label, Entry.breaks, h]
      rfl
    · have close : ")\n" = ")" ++ "\n" := by decide
      have none : breaks "[" = 0 ∧ breaks "](" = 0 ∧ breaks ")" = 0 := by decide
      rw [if_neg h, close, ← String.append_assoc]
      refine Entry.writes_of_breaks ?_
      simp only [breaks_append, none, Markdown.breaks_label, Markdown.breaks_link, Entry.breaks,
        Nat.zero_add, Nat.add_zero]
  ends _ := rfl

end Drawing

/-! ### Renderings -/

/-- The texts that a style writes for some entries. -/
theorem Style.writes_of_ne_html {style : Style} (h : style ≠ .html) (indent : Nat)
    (es : List Entry) : List.Forall₂ Entry.Writes es (style.run indent (es.map .entry)) ∧
      style.draw indent es = String.join (style.run indent (es.map .entry)) := by
  cases style with
  | text => exact ⟨(Drawing.byLine_lines indent).run _ es, (Drawing.byLine_lines indent).draw_eq es⟩
  | tree => exact ⟨Drawing.byLine_branches.run _ es, Drawing.byLine_branches.draw_eq es⟩
  | html => exact absurd rfl h
  | markdown => exact ⟨Drawing.byLine_markdown.run _ es, Drawing.byLine_markdown.draw_eq es⟩

/-- Neither the label nor the link has a line break. -/
def Entry.Unbroken (e : Entry) : Prop := '\n' ∉ e.text.toList ∧ '\n' ∉ e.href.toList

instance (e : Entry) : Decidable e.Unbroken :=
  inferInstanceAs (Decidable ('\n' ∉ e.text.toList ∧ '\n' ∉ e.href.toList))

/-- What a style draws of some entries is made of lines: one for each entry, and one more for each
line break in its label or its link.  They are as many as the entries exactly if there is no such
line break, and then each of them is the text that is written for its entry. -/
structure Style.Lined (style : Style) (indent : Nat) (es : List Entry) (text : String) : Prop where
  lines : ∃ ls, Lines text ls ∧ ls.length = es.length + (es.map Entry.breaks).sum
  asMany : (∃ ls, Lines text ls ∧ ls.length = es.length) ↔ ∀ e ∈ es, e.Unbroken
  each : Lines text (style.run indent (es.map .entry)) ↔ ∀ e ∈ es, e.Unbroken

theorem Style.lined_draw {style : Style} (h : style ≠ .html) (indent : Nat) (es : List Entry) :
    style.Lined indent es (style.draw indent es) := by
  obtain ⟨writes, draw⟩ := style.writes_of_ne_html h indent es
  obtain ⟨ls, hl, count⟩ := Entry.exists_lines_join writes
  have unbroken : (∀ e ∈ es, e.Unbroken) ↔ ∀ e ∈ es, e.breaks = 0 :=
    forall₂_congr fun _ _ => Entry.breaks_eq_zero.symm
  rw [draw]
  refine ⟨⟨ls, hl, count⟩, ?_, ?_⟩
  · rw [unbroken]
    constructor
    · rintro ⟨ks, hk, as⟩ e he
      have none : (es.map Entry.breaks).sum = 0 := by
        rw [hl.length_eq, ← hk.length_eq, as] at count
        omega
      exact List.sum_eq_zero_iff_forall_eq_nat.mp none _ (List.mem_map_of_mem he)
    · intro none
      exact ⟨_, (Entry.lines_join_iff writes).mpr none, writes.length_eq.symm⟩
  · rw [unbroken]
    exact Entry.lines_join_iff writes

namespace Renderer

/-- Lines, branches and bullets of a tree or of a node: how many lines they have, and when these are
one for each entry. -/
theorem lines_of_draw {style : Style} (h : style ≠ .html) (r : Renderer) (t : Tree) :
    style.Lined r.indent (r.treeEntries t) (r.drawTree style t) ∧
      ∀ n, style.Lined r.indent (r.entries t n) (r.draw style t n) := by
  refine ⟨?_, fun n => ?_⟩
  · rw [r.drawTree_eq]
    exact style.lined_draw h r.indent _
  · rw [r.draw_eq]
    exact style.lined_draw h r.indent _

/-- Two levels without line breaks, and on the third a label that has one. -/
def wrapped : Outline :=
  ⟨[⟨"A", "", [⟨"B", "b", [⟨"c\nd", "x", []⟩]⟩]⟩, ⟨"D", "d", []⟩]⟩

/-- The branches of two levels are a line each, in the order of their nodes.  The bullets of all
levels, and those below one node, are a line more than the entries. -/
theorem lines_of_draw_wrapped :
    Style.tree ≠ .html ∧ Style.markdown ≠ .html ∧
      Lines ((Renderer.mk (some 2) none 2).drawTree .tree (Tree.layOut wrapped))
        ["├── A\n", "│   └── B (b)\n", "└── D (d)\n"] ∧
      (∃ ls, Lines (standard.drawTree .markdown (Tree.layOut wrapped)) ls ∧ ls.length = 5) ∧
      ∃ ls, Lines (standard.draw .markdown (Tree.layOut wrapped) 1) ls ∧ ls.length = 3 := by
  refine ⟨by decide, by decide, ?_, ?_, ?_⟩
  · have drawn := lines_of_draw (show Style.tree ≠ .html by decide) ⟨some 2, none, 2⟩
      (Tree.layOut wrapped)
    exact drawn.1.each.mpr (by decide +kernel)
  · exact (lines_of_draw (show Style.markdown ≠ .html by decide) standard _).1.lines
  · exact (lines_of_draw (show Style.markdown ≠ .html by decide) standard _).2 1 |>.lines

/-- An item whose label has a line break. -/
def broken : Outline := ⟨[⟨"a\nb", "", []⟩]⟩

/-- No style but the nested lists draws this item on one line. -/
theorem line_of_broken : Tree.ofOutline broken = .ok (Tree.layOut broken) ∧
    (standard.treeEntries (Tree.layOut broken)).length = 1 ∧ ∀ style, style ≠ .html →
      ¬ ∃ ls, Lines (standard.drawTree style (Tree.layOut broken)) ls ∧ ls.length = 1 := by
  refine ⟨rfl, rfl, fun style h => ?_⟩
  rintro ⟨ls, hl, one⟩
  have two : breaks (standard.drawTree style (Tree.layOut broken)) = 2 := by
    cases style with
    | html => exact absurd rfl h
    | text => decide +kernel
    | tree => decide +kernel
    | markdown => decide +kernel
  rw [hl.length_eq, two] at one
  exact absurd one (by decide)

end Renderer

end Sidebar
