import Sidebar.Proofs.Render.Balance
import Sidebar.Proofs.Render.Shown
import Sidebar.Render.Style

/-!
# Render — one drawing for several renderings

A drawing can be handed one rendering after the other.  A bullet or an indented line keeps no state
at all, the nested lists put theirs back at the end, and the branches keep theirs: the first entry
of the next rendering stands at the top and cuts it off.  So each rendering is drawn as if the
drawing were new.

* `Call.atTop_entries`: the entries of a call begin at the top, if there are any.
* `Drawing.Reusable`: the states between two deliveries, from which a delivery is drawn as from the
  start and to which it leads back.
* `Drawing.Reusable.run_flatMap`: a row of deliveries is drawn one by one.
* `Drawing.drawCalls`: what one drawing writes for a row of calls.
* `Style.run_calls`: in every style, one drawing draws a row of calls as new drawings would.
-/

namespace Sidebar

/-- The first of some entries, if there is one, stands at the top. -/
def Entry.AtTop (es : List Entry) : Prop :=
  ∀ e ∈ es.head?, e.depth = 0

theorem Entry.AtTop.nil : AtTop [] := by
  intro e he
  cases he

theorem Entry.AtTop.append {es fs : List Entry} (he : AtTop es) (hf : AtTop fs) :
    AtTop (es ++ fs) := by
  cases es with
  | nil => exact hf
  | cons e es => exact he

/-! ### Calls -/

namespace Renderer

/-- No level is drawn where the top level is not. -/
theorem shows_eq_false {r : Renderer} (h : r.reaches 0 = false) (t : Tree) (base n : Nat) :
    r.shows t base n = false := by
  refine Bool.eq_false_iff.mpr fun hs => ?_
  obtain ⟨c, -, hc⟩ := (Option.any_eq_true _ _).mp hs
  exact Bool.false_ne_true (h.symm.trans (reaches_of_le hc (Nat.zero_le _)))

/-- The entries of a node begin with the node itself. -/
theorem atTop_subtreeEntries (r : Renderer) (t : Tree) (topIsLast : Bool) (n : Nat) :
    Entry.AtTop (r.subtreeEntries t topIsLast n) := by
  rw [subtreeEntries]
  cases hc : t.cell? n with
  | none => exact .nil
  | some c =>
      cases hd : r.reaches 0 with
      | false =>
          have none : (Cursor.mk n c.stop).rest.filterMap (r.entry? t c.depth topIsLast) = [] :=
            List.filterMap_eq_nil_iff.mpr fun k _ =>
              entry?_of_not_shows (shows_eq_false hd t c.depth k)
          simp only [none]
          exact .nil
      | true =>
          cases hk : c.stop - n with
          | zero =>
              simp only [Cursor.rest, Cursor.remaining, hk]
              exact .nil
          | succ k =>
              have first : r.entry? t c.depth topIsLast n =
                  some ⟨c.text, Link.resolve r.linkBase c.url, 0, c.isLeaf || r.endsAt 0,
                    topIsLast⟩ := by
                unfold entry?
                simp only [hc, Option.bind_some, Nat.sub_self, hides_eq, hd]
                rfl
              simp only [Cursor.rest, Cursor.remaining, hk, List.range'_succ,
                List.filterMap_cons_some first]
              intro e he
              obtain rfl := Option.some.inj he
              rfl

end Renderer

namespace Call

/-- The marks that a drawing is handed for a call. -/
def marks (c : Call) : List Mark := Mark.delivery c.entries

/-- The entries of a call begin at the top. -/
theorem atTop_entries (c : Call) : Entry.AtTop c.entries := by
  cases c with
  | node r t n => exact r.atTop_subtreeEntries t true n
  | tree r t =>
      rw [entries, Renderer.treeEntries]
      induction t.roots with
      | nil => exact .nil
      | cons n ns ih =>
          rw [List.flatMap_cons]
          exact (r.atTop_subtreeEntries t _ n).append ih

end Call

/-! ### Drawings between two deliveries -/

namespace Drawing

variable {σ : Type}

/-- A drawing is in one of some states before a delivery that begins at the top.  It writes what it
would write at the start, and is in such a state again. -/
structure Reusable (d : Drawing σ) (between : σ → Prop) : Prop where
  start : between d.start
  delivery {s : σ} {es : List Entry} (hs : between s) (top : Entry.AtTop es) :
    (d.run s (Mark.delivery es)).2 = (d.run d.start (Mark.delivery es)).2 ∧
      between (d.run s (Mark.delivery es)).1

/-- A row of deliveries is written one by one. -/
theorem Reusable.run_flatMap {d : Drawing σ} {between : σ → Prop} (h : d.Reusable between)
    (calls : List Call) {s : σ} (hs : between s) :
    String.join (d.run s (calls.flatMap Call.marks)).2 = String.join (calls.map d.drawCall) := by
  induction calls generalizing s with
  | nil => rfl
  | cons c calls ih =>
      obtain ⟨same, hs'⟩ := h.delivery hs c.atTop_entries
      rw [List.flatMap_cons, run_append, String.join_append, Call.marks, same, ih hs',
        List.map_cons, String.join_cons, d.drawCall_eq]
      rfl

/-- What one drawing has written when it has been handed what a row of calls asks for. -/
def drawCalls (d : Drawing σ) (calls : List Call) : String :=
  ((calls.forM fun c => c.feed d.sink).run (d.start, "")).2.2

/-- A drawing that is handed a row of calls writes the texts of their marks. -/
theorem run_forM_feed (d : Drawing σ) (calls : List Call) (s : σ) (text : String) :
    ((calls.forM fun c => c.feed d.sink).run (s, text)).2 =
      ((d.run s (calls.flatMap Call.marks)).1,
        text ++ String.join (d.run s (calls.flatMap Call.marks)).2) := by
  induction calls generalizing s text with
  | nil => exact Prod.ext rfl String.append_empty.symm
  | cons c calls ih =>
      have step : ((c :: calls).forM fun c => c.feed d.sink).run (s, text) =
          (calls.forM fun c => c.feed d.sink).run ((c.feed d.sink).run (s, text)).2 := rfl
      rw [step, c.feed_eq, run_deliver, ih, List.flatMap_cons, run_append, String.join_append,
        String.append_assoc]
      rfl

/-- From the start on, each is written as it would be at the start, whether the drawing is handed
the marks or walks through the trees. -/
theorem Reusable.run_start {d : Drawing σ} {between : σ → Prop} (h : d.Reusable between)
    (calls : List Call) :
    String.join (d.run d.start (calls.flatMap Call.marks)).2 =
        String.join (calls.map d.drawCall) ∧
      d.drawCalls calls = String.join (calls.map d.drawCall) := by
  have marks := h.run_flatMap calls h.start
  refine ⟨marks, ?_⟩
  rw [drawCalls, run_forM_feed, String.empty_append, marks]

/-- A drawing without a state. -/
theorem reusable_of_unit (d : Drawing Unit) : d.Reusable fun _ => True :=
  ⟨trivial, fun _ _ => ⟨rfl, trivial⟩⟩

/-- An entry at the top cuts off all branches that are open. -/
theorem branches_entry_zero (levels : List Bool) {e : Entry} (h : e.depth = 0) :
    branches.mark levels (.entry e) = branches.mark [] (.entry e) := by
  simp only [mark, branches, h, List.take_zero]

/-- The branches may be in any state. -/
theorem reusable_branches : branches.Reusable fun _ => True := by
  refine ⟨trivial, fun {s es} _ top => ⟨?_, trivial⟩⟩
  cases es with
  | nil => rfl
  | cons e es =>
      have first : Mark.delivery (e :: es) = .entry e :: Mark.delivery es := rfl
      rw [first, run_cons, run_cons, branches_entry_zero s (top e rfl)]
      rfl

/-- The nested lists are as at the start behind every end. -/
theorem html_after_finish (ms : List Mark) : html.after (ms ++ [.finish]) = html.start := by
  obtain ⟨stack, done, h, _⟩ := html_stands (ms ++ [.finish])
  have closed : (html.after (ms ++ [.finish])).started = false := by
    rw [after_concat, html_started_finish]
  cases hs : html.after (ms ++ [.finish]) with
  | mk started nested =>
      rw [hs] at h closed
      obtain rfl : started = false := closed
      cases h with
      | between => rfl

/-- The nested lists must be as at the start. -/
theorem reusable_html : html.Reusable fun s => s = html.start := by
  refine ⟨rfl, fun {s es} hs _ => ?_⟩
  rw [hs]
  exact ⟨rfl, html_after_finish (es.map .entry)⟩

end Drawing

/-! ### Styles -/

/-- What one drawing of the style writes for a row of calls. -/
def Style.drawCalls (style : Style) (indent : Nat) (calls : List Call) : String :=
  match style with
  | .text     => (Drawing.lines indent).drawCalls calls
  | .tree     => Drawing.branches.drawCalls calls
  | .html     => Drawing.html.drawCalls calls
  | .markdown => Drawing.markdown.drawCalls calls

/-- Whatever a drawing is asked for in a row, whole trees or nodes, cut off or empty, with one
renderer or several, it writes what new drawings would, one for each call: when it is handed their
marks, and when the renderers walk through the trees. -/
theorem Style.run_calls (style : Style) (indent : Nat) (calls : List Call) :
    String.join (style.run indent (calls.flatMap Call.marks)) =
        String.join (calls.map (Call.draw style indent)) ∧
      style.drawCalls indent calls = String.join (calls.map (Call.draw style indent)) := by
  cases style with
  | text => exact (Drawing.reusable_of_unit _).run_start calls
  | tree => exact Drawing.reusable_branches.run_start calls
  | html => exact Drawing.reusable_html.run_start calls
  | markdown => exact (Drawing.reusable_of_unit _).run_start calls

/-- The branches of one level are still open when the next call comes, which has nothing to draw. -/
example : (Drawing.branches.run [] (Mark.delivery [⟨"A", "", 0, false, false⟩])).1 = [true] ∧
    Style.run .tree 2 [.entry ⟨"A", "", 0, false, false⟩, .finish, .finish,
      .entry ⟨"B", "b", 0, true, true⟩, .finish] = ["├── A\n", "", "", "└── B (b)\n", ""] := by
  decide

end Sidebar
