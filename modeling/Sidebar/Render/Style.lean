import Sidebar.Render.Html
import Sidebar.Render.Markdown
import Sidebar.Render.Walk

/-!
# Render — styles

A style names one of the four drawings.  `Renderer.draw` and `Renderer.drawTree` draw a node or
a whole tree in a style: a new drawing is handed what the walk through the nodes comes to.

* `Drawing.drawCall_eq`: the text of a call is that of its entries.
* `Renderer.draw_eq`, `Renderer.drawTree_eq`: so is that of a node or a tree, in every style.
-/

namespace Sidebar

/-- The style of a drawing. -/
inductive Style where
  | text
  | tree
  | html
  | markdown
deriving DecidableEq, Repr

namespace Style

/-- The name of a style. -/
def name : Style → String
  | .text     => "text"
  | .tree     => "tree"
  | .html     => "html"
  | .markdown => "markdown"

/-- The style of a name, or of a short name. -/
def ofName? (s : String) : Option Style :=
  if s = "text" then some .text
  else if s = "tree" then some .tree
  else if s = "html" then some .html
  else if s = "markdown" ∨ s = "md" then some .markdown
  else none

@[simp] theorem ofName?_name (s : Style) : ofName? s.name = some s := by
  cases s <;> decide

/-- The message for a name that no style has. -/
def unknownName (s : String) : String :=
  s!"unknown render style `{s}` (expected text, tree, html or markdown)"

/-- The texts that a drawing of the style writes for some marks. -/
def run (style : Style) (indent : Nat) (ms : List Mark) : List String :=
  match style with
  | .text     => ((Drawing.lines indent).run () ms).2
  | .tree     => (Drawing.branches.run [] ms).2
  | .html     => (Drawing.html.run ⟨false, 0⟩ ms).2
  | .markdown => (Drawing.markdown.run () ms).2

/-- The text of some entries in the style. -/
def draw (style : Style) (indent : Nat) (es : List Entry) : String :=
  match style with
  | .text     => (Drawing.lines indent).draw es
  | .tree     => Drawing.branches.draw es
  | .html     => Drawing.html.draw es
  | .markdown => Drawing.markdown.draw es

theorem draw_eq_run (style : Style) (indent : Nat) (es : List Entry) :
    style.draw indent es = String.join (style.run indent (Mark.delivery es)) := by
  cases style <;> rfl

end Style

/-! ### Calls -/

namespace Drawing

variable {σ : Type}

/-- What a new drawing has written when it has been handed what a call asks for. -/
def drawCall (d : Drawing σ) (c : Call) : String :=
  ((c.feed d.sink).run (d.start, "")).2.2

/-- A drawing that is handed a delivery writes the text of its marks behind what it has written. -/
theorem run_deliver (d : Drawing σ) (es : List Entry) (s : σ) (text : String) :
    ((d.sink.deliver es).run (s, text)).2 =
      ((d.run s (Mark.delivery es)).1, text ++ String.join (d.run s (Mark.delivery es)).2) := by
  induction es generalizing s text with
  | nil =>
      have ending : (d.run s (Mark.delivery [])).2 = [(d.finish s).2] := rfl
      rw [Sink.deliver_nil, ending, String.join_cons, String.join_nil, String.append_empty]
      rfl
  | cons e es ih =>
      have step : (d.sink.deliver (e :: es)).run (s, text) =
          (d.sink.deliver es).run ((d.entry s e).1, text ++ (d.entry s e).2) := by
        rw [Sink.deliver_cons]
        rfl
      have delivery : Mark.delivery (e :: es) = .entry e :: Mark.delivery es := rfl
      rw [step, ih, delivery, run_cons, String.join_cons, ← String.append_assoc]
      rfl

theorem drawCall_eq (d : Drawing σ) (c : Call) : d.drawCall c = d.draw c.entries := by
  rw [drawCall, c.feed_eq, run_deliver, draw, String.empty_append]

end Drawing

/-- What a new drawing of the style writes for a call. -/
def Call.draw (style : Style) (indent : Nat) (c : Call) : String :=
  match style with
  | .text     => (Drawing.lines indent).drawCall c
  | .tree     => Drawing.branches.drawCall c
  | .html     => Drawing.html.drawCall c
  | .markdown => Drawing.markdown.drawCall c

theorem Call.draw_eq (style : Style) (indent : Nat) (c : Call) :
    c.draw style indent = style.draw indent c.entries := by
  cases style with
  | text => exact Drawing.drawCall_eq _ c
  | tree => exact Drawing.drawCall_eq _ c
  | html => exact Drawing.drawCall_eq _ c
  | markdown => exact Drawing.drawCall_eq _ c

namespace Renderer

/-- A node and what is below it, drawn as a tree of its own. -/
def draw (r : Renderer) (style : Style) (t : Tree) (n : Nat) : String :=
  (Call.node r t n).draw style r.indent

/-- A whole tree, drawn. -/
def drawTree (r : Renderer) (style : Style) (t : Tree) : String :=
  (Call.tree r t).draw style r.indent

theorem draw_eq (r : Renderer) (style : Style) (t : Tree) (n : Nat) :
    r.draw style t n = style.draw r.indent (r.entries t n) :=
  (Call.node r t n).draw_eq style r.indent

theorem drawTree_eq (r : Renderer) (style : Style) (t : Tree) :
    r.drawTree style t = style.draw r.indent (r.treeEntries t) :=
  (Call.tree r t).draw_eq style r.indent

end Renderer

end Sidebar
