import Sidebar.Proofs.Render.Forest
import Sidebar.Proofs.Render.Markup
import Sidebar.Render.Style

/-!
# Render — nested lists are read back

A nested list is one `ul` of `li`s, each with a label and possibly a nested list of its own.  The
label is a link, or a span where there is none.  The drawing of a rendering is such a list, of the
items of its forest, so the forest can be read from it.

* `Item.element`: an item as an element.
* `Html.read`: the items of a nested list.
* `Drawing.html_entriesAll`: what the drawing writes for a forest.
-/

namespace Sidebar

/-! ### Lists as elements -/

namespace Item

/-- The label of an item, with the text between it and what follows. -/
def label (text href tail : String) : Html.Element :=
  if href = "" then ⟨.span, none, text, [], tail⟩ else ⟨.a, some href, text, [], tail⟩

mutual

/-- An item as an element; its address is a link. -/
def element : Item → Html.Element
  | ⟨text, url, children⟩ =>
    ⟨.li, none, "", label text url (if children.isEmpty then "" else "\n") :: lists children, "\n"⟩

/-- The list of the items below another one, if there are any. -/
def lists : List Item → List Html.Element
  | []      => []
  | x :: xs => [⟨.ul, none, "\n", x.element :: elements xs, "\n"⟩]

/-- Items in a row as elements. -/
def elements : List Item → List Html.Element
  | []      => []
  | x :: xs => x.element :: elements xs

end

theorem lists_of_ne_nil {xs : List Item} (h : xs ≠ []) :
    lists xs = [⟨.ul, none, "\n", elements xs, "\n"⟩] := by
  cases xs with
  | nil => exact absurd rfl h
  | cons x xs => rw [lists, elements]

theorem lists_eq_nil {xs : List Item} : lists xs = [] ↔ xs = [] := by
  cases xs with
  | nil => simp [lists]
  | cons x xs => simp [lists]

end Item

/-! ### Reading lists -/

namespace Html

/-- Text between tags that is there for the layout only. -/
def isLayout (s : String) : Bool := s.toList.all (· == '\n')

/-- The text and the link of a label.  There is no link behind a span, and an `a` has one. -/
def label? : Element → Option (String × String)
  | ⟨.span, none, text, [], tail⟩   => if isLayout tail then some (text, "") else none
  | ⟨.a, some href, text, [], tail⟩ =>
    if isLayout tail ∧ href ≠ "" then some (text, href) else none
  | _                               => none

mutual

/-- The item of an `li`: a label, and possibly a list. -/
def item? : Element → Option Item
  | ⟨.li, none, text, label :: lists, tail⟩ =>
    if isLayout text ∧ isLayout tail then
      (label? label).bind fun l => (below? lists).map fun children => ⟨l.1, l.2, children⟩
    else none
  | _ => none

/-- The items of the list behind a label, if there is one. -/
def below? : List Element → Option (List Item)
  | []     => some []
  | [list] => list? list
  | _      => none

/-- The items of a `ul`. -/
def list? : Element → Option (List Item)
  | ⟨.ul, none, text, items, tail⟩ =>
    if isLayout text ∧ isLayout tail then items? items else none
  | _ => none

/-- The items of some `li`s. -/
def items? : List Element → Option (List Item)
  | []      => some []
  | e :: es => (item? e).bind fun x => (items? es).map (x :: ·)

end

/-- The items of a text: none where there is nothing, and else those of one nested list. -/
def read (s : String) : Option (List Item) :=
  if s = "" then some []
  else
    match elements? s with
    | some [e] => list? e
    | _        => none

theorem label?_label (text href : String) {tail : String} (h : isLayout tail = true) :
    label? (Item.label text href tail) = some (text, href) := by
  rw [Item.label]
  by_cases e : href = ""
  · rw [if_pos e, label?, if_pos h, e]
  · rw [if_neg e, label?, if_pos ⟨h, e⟩]

mutual

theorem item?_element : (x : Item) → item? x.element = some x
  | ⟨text, url, children⟩ => by
      have layout : isLayout (if children.isEmpty then "" else "\n") = true := by
        cases children with
        | nil => decide
        | cons x xs => exact (by decide : isLayout "\n" = true)
      rw [Item.element, item?, if_pos ⟨rfl, rfl⟩, label?_label text url layout, Option.bind_some,
        below?_lists]
      rfl

theorem below?_lists : (xs : List Item) → below? (Item.lists xs) = some xs
  | [] => rfl
  | x :: xs => by
      rw [Item.lists, below?, list?, if_pos ⟨rfl, rfl⟩, items?, item?_element, items?_elements]
      rfl

theorem items?_elements : (xs : List Item) → items? (Item.elements xs) = some xs
  | [] => rfl
  | x :: xs => by
      rw [Item.elements, items?, item?_element, items?_elements]
      rfl

end

/-! ### Closing lists -/

theorem repeatText_succ (n : Nat) (s : String) : repeatText (n + 1) s = repeatText n s ++ s := by
  simp only [repeatText, List.replicate_succ', String.join_append, String.join_cons,
    String.join_nil, String.append_empty]

@[simp] theorem closing_self (d : Nat) : closing d d = "" := by
  rw [closing, Nat.sub_self]
  rfl

/-- The list below an item is the last to be closed. -/
theorem closing_succ {nested d : Nat} (h : d + 1 ≤ nested) :
    closing nested d = closing nested (d + 1) ++ "</ul>\n</li>\n" := by
  have e : nested - d = nested - (d + 1) + 1 := by omega
  rw [closing, closing, e, repeatText_succ]

end Html

/-! ### Drawing lists -/

namespace Drawing

open Html

theorem html_label (text href tail : String) :
    Html.html [Item.label text href tail] = Html.html [Item.label text href ""] ++ escape tail := by
  rw [Item.label, Item.label]
  by_cases e : href = ""
  · simp [e, html_singleton, Piece.html, String.append_assoc]
  · simp [e, html_singleton, Piece.html, String.append_assoc]

theorem html_item (text href : String) (d : Nat) (isLeaf isLast : Bool) :
    Html.item ⟨text, href, d, isLeaf, isLast⟩ =
      "<li>" ++ Html.html [Item.label text href ""] := by
  rw [Html.item, Item.label, ← String.toList_inj]
  by_cases e : href = ""
  · simp [e, html_singleton, Piece.html, Tag.text, Name.text]
  · simp [e, html_singleton, Piece.html, Tag.text, Name.text]

/-- A leaf is closed on its own line. -/
theorem html_leaf (text href : String) (d : Nat) (isLast : Bool) :
    Html.html [(Item.mk text href []).element] =
      Html.item ⟨text, href, d, true, isLast⟩ ++ "</li>\n" := by
  have start : (Piece.mk (.start .li none) "").html = "<li>" := by decide
  have stop : (Piece.mk (.stop .li) "\n").html = "</li>\n" := by decide
  rw [Item.element, html_singleton, html_item, Item.lists, start, stop]
  rfl

/-- Any other item is closed behind the list of what is below it. -/
theorem html_branch (text href : String) {xs : List Item} (h : xs ≠ []) (d : Nat)
    (isLast : Bool) :
    Html.html [(Item.mk text href xs).element] =
      Html.item ⟨text, href, d, false, isLast⟩ ++ "\n<ul>\n" ++ Html.html (Item.elements xs) ++
        "</ul>\n</li>\n" := by
  have nonempty : xs.isEmpty = false := by rw [List.isEmpty_eq_false_iff]; exact h
  rw [Item.element, html_singleton, html_item, Item.lists_of_ne_nil h, nonempty, html_cons,
    html_label, html_singleton, ← String.toList_inj]
  simp [Piece.html, Tag.text, Name.text]

theorem html_mark_leaf {nested d : Nat} (h : d ≤ nested) (text href : String) (isLast : Bool) :
    html.mark ⟨true, nested⟩ (.entry ⟨text, href, d, true, isLast⟩) =
      (⟨true, d⟩, closing nested d ++ Html.item ⟨text, href, d, true, isLast⟩ ++ "</li>\n") := by
  simp only [mark, html, Nat.min_eq_right h, if_true, String.empty_append]

theorem html_mark_branch {nested d : Nat} (h : d ≤ nested) (text href : String) (isLast : Bool) :
    html.mark ⟨true, nested⟩ (.entry ⟨text, href, d, false, isLast⟩) =
      (⟨true, d + 1⟩,
        closing nested d ++ Html.item ⟨text, href, d, false, isLast⟩ ++ "\n<ul>\n") := by
  simp only [mark, html, Nat.min_eq_right h, if_true, if_false, String.empty_append,
    Bool.false_eq_true]

mutual

/-- Where a list is open, the entries of an item close what is open below it and write the item,
up to the lists that are then open below its own depth. -/
theorem html_entries {nested d : Nat} (h : d ≤ nested) (isLast : Bool) : (x : Item) →
    ∃ k outs, html.run ⟨true, nested⟩ ((x.entries d isLast).map .entry) = (⟨true, k⟩, outs) ∧
      d ≤ k ∧ String.join outs ++ closing k d = closing nested d ++ Html.html [x.element]
  | ⟨text, url, []⟩ => by
      refine ⟨d, [closing nested d ++ Html.item ⟨text, url, d, true, isLast⟩ ++ "</li>\n"], ?_,
        Nat.le_refl d, ?_⟩
      · rw [Item.entries, List.map_cons, run_cons, List.isEmpty_nil, html_mark_leaf h]
        rfl
      · rw [closing_self, html_leaf text url d isLast, String.join_cons, String.join_nil,
          String.append_empty, String.append_empty, String.append_assoc]
  | ⟨text, url, y :: ys⟩ => by
      obtain ⟨k, outs, hr, hk, e⟩ := html_entriesAll (Nat.le_refl (d + 1)) (y :: ys)
      refine ⟨k,
        (closing nested d ++ Html.item ⟨text, url, d, false, isLast⟩ ++ "\n<ul>\n") :: outs, ?_,
        Nat.le_of_succ_le hk, ?_⟩
      · rw [Item.entries, List.map_cons, run_cons, List.isEmpty_cons, html_mark_branch h, hr]
      · rw [closing_self, String.empty_append] at e
        rw [html_branch text url (List.cons_ne_nil y ys) d isLast, ← e, closing_succ hk,
          String.join_cons]
        simp only [String.append_assoc]

theorem html_entriesAll {nested d : Nat} (h : d ≤ nested) : (xs : List Item) →
    ∃ k outs, html.run ⟨true, nested⟩ ((Item.entriesAll d xs).map .entry) = (⟨true, k⟩, outs) ∧
      d ≤ k ∧ String.join outs ++ closing k d = closing nested d ++ Html.html (Item.elements xs)
  | [] => ⟨nested, [], rfl, h, by simp [Item.elements]⟩
  | x :: xs => by
      obtain ⟨k, outs, hx, hk, ex⟩ := html_entries h xs.isEmpty x
      obtain ⟨k', outs', hxs, hk', exs⟩ := html_entriesAll hk xs
      refine ⟨k', outs ++ outs', ?_, hk', ?_⟩
      · rw [Item.entriesAll, List.map_append, run_append, hx, hxs]
      · rw [Item.elements, html_cons, String.join_append, String.append_assoc, exs,
          ← String.append_assoc, ex, String.append_assoc]

end

/-- The first entry of a document opens its outer list. -/
theorem html_run_first {es : List Entry} (h : es ≠ []) :
    (html.run ⟨false, 0⟩ (es.map .entry)).1 = (html.run ⟨true, 0⟩ (es.map .entry)).1 ∧
      String.join (html.run ⟨false, 0⟩ (es.map .entry)).2 =
        "<ul>\n" ++ String.join (html.run ⟨true, 0⟩ (es.map .entry)).2 := by
  cases es with
  | nil => exact absurd rfl h
  | cons e es =>
      have first : html.mark ⟨false, 0⟩ (.entry e) =
          ((html.mark ⟨true, 0⟩ (.entry e)).1, "<ul>\n" ++ (html.mark ⟨true, 0⟩ (.entry e)).2) := by
        simp only [mark, html]
        cases e.isLeaf <;> simp [String.append_assoc]
      rw [List.map_cons, run_cons, run_cons, first, String.join_cons, String.join_cons,
        String.append_assoc]
      exact ⟨rfl, rfl⟩

/-- A forest is drawn as one list, or not at all if it is empty. -/
theorem html_draw_entriesAll (xs : List Item) :
    html.draw (Item.entriesAll 0 xs) = Html.html (Item.lists xs) := by
  match xs with
  | [] => rfl
  | x :: xs =>
      have nonempty : Item.entriesAll 0 (x :: xs) ≠ [] :=
        mt Item.entriesAll_eq_nil.mp (List.cons_ne_nil x xs)
      obtain ⟨k, outs, run, -, e⟩ := html_entriesAll (Nat.le_refl 0) (x :: xs)
      obtain ⟨state, text⟩ := html_run_first nonempty
      have start : html.start = ⟨false, 0⟩ := rfl
      have finish : html.run ⟨true, k⟩ [.finish] = (⟨false, 0⟩, [closing k 0 ++ "</ul>\n"]) := rfl
      have opening : (Piece.mk (.start .ul none) "\n").html = "<ul>\n" := by decide
      have ending : (Piece.mk (.stop .ul) "\n").html = "</ul>\n" := by decide
      rw [closing_self, String.empty_append] at e
      rw [draw, Mark.delivery, start, run_append, state, String.join_append, text, run, finish,
        Item.lists_of_ne_nil (List.cons_ne_nil x xs), html_singleton, opening, ending, ← e,
        String.join_cons, String.join_nil, String.append_empty]
      simp only [String.append_assoc]

end Drawing

theorem Html.read_html_lists (xs : List Item) : read (html (Item.lists xs)) = some xs := by
  match xs with
  | [] => rfl
  | x :: xs =>
      have one : Item.lists (x :: xs) = [⟨.ul, none, "\n", Item.elements (x :: xs), "\n"⟩] :=
        Item.lists_of_ne_nil (List.cons_ne_nil x xs)
      have list := below?_lists (x :: xs)
      rw [one] at list ⊢
      rw [read, if_neg (mt html_eq_empty.mp (List.cons_ne_nil _ _)), elements?_html]
      exact list

/-- Different forests are written differently. -/
theorem Html.html_lists_inj {xs ys : List Item} :
    html (Item.lists xs) = html (Item.lists ys) ↔ xs = ys := by
  constructor
  · intro e
    have := read_html_lists xs
    rw [e, read_html_lists] at this
    exact (Option.some.inj this).symm
  · exact congrArg fun xs => html (Item.lists xs)

theorem Rendering.html_draw {c : Call} {xs : List Item} (h : Rendering c xs) :
    Drawing.html.drawCall c = Html.html (Item.lists xs) := by
  rw [Drawing.drawCall_eq, h.entries_eq, Drawing.html_draw_entriesAll]

/-- The drawing of a rendering is empty exactly when there are no entries.  Otherwise it is one
nested list from which the forest is read back, the entries' texts and links in their order and
depth; so two renderings are drawn alike exactly when their forests are the same. -/
theorem Rendering.html_reads_back {c : Call} {xs : List Item} (h : Rendering c xs) :
    (Drawing.html.drawCall c = "" ↔ c.entries = []) ∧
      Html.read (Drawing.html.drawCall c) = some xs ∧
      c.entries.map Entry.row = Item.listingAll 0 xs ∧
      ∀ c' xs', Rendering c' xs' →
        (Drawing.html.drawCall c = Drawing.html.drawCall c' ↔ xs = xs') := by
  refine ⟨?_, ?_, ?_, fun c' xs' h' => ?_⟩
  · rw [h.html_draw, Html.html_eq_empty, Item.lists_eq_nil, h.entries_eq, Item.entriesAll_eq_nil]
  · rw [h.html_draw, Html.read_html_lists]
  · rw [h.entries_eq, Item.map_row_entriesAll]
  · rw [h.html_draw, h'.html_draw, Html.html_lists_inj]

/-- A menu whose labels and links look like markup, three levels deep. -/
def marked : Outline :=
  ⟨[⟨"<A & \"B\">", "",
    [⟨"it's\n</li>", "b.html?x=1&y='2'", [⟨"C", "c", []⟩]⟩, ⟨"&lt;", "#", []⟩]⟩]⟩

/-- Two levels of it, with relative links behind a prefix; and one of its nodes. -/
theorem Rendering.html_reads_back_marked :
    Html.read ((Renderer.mk (some 2) (some "p/") 2).drawTree .html (Tree.layOut marked)) =
      some [⟨"<A & \"B\">", "",
        [⟨"it's\n</li>", "p/b.html?x=1&y='2'", []⟩, ⟨"&lt;", "#", []⟩]⟩] ∧
    Html.read (Renderer.standard.draw .html (Tree.layOut marked) 1) =
      some [⟨"it's\n</li>", "b.html?x=1&y='2'", [⟨"C", "c", []⟩]⟩] :=
  ⟨(html_reads_back (.tree (o := marked) rfl _)).2.1,
    (html_reads_back (.node (o := marked) rfl Renderer.standard (by decide))).2.1⟩

end Sidebar
