import Sidebar.Proofs.Render.Html

/-!
# Render — nested lists under any use

The drawing of nested lists can be handed marks that no renderer makes: depths that jump, flags
that are wrong, an end where nothing has begun, entries after the end.  What it writes is properly
nested all the same.  Its state tells what is still open, and the end closes all of that.

* `Html.unclosed?`: the elements that a text leaves open.
* `Html.Stands`: the open elements that a state goes with.
* `Html.Stands.mark`, `Html.Stands.run`: what one mark makes of them, and what a run of marks.
* `Html.specialsIn`: the special characters of a text, which no label or link adds to.
* `Drawing.html_balanced`: whatever the marks, the text written for them is balanced.
-/

namespace Sidebar

namespace Html

/-! ### Unclosed elements -/

/-- The elements that are open behind some pieces, the innermost first, those of `names` being open
in front of them; none where an end tag does not close the innermost one. -/
def unclosedFrom : List Name → List Piece → Option (List Name)
  | names, []                          => some names
  | names, ⟨.start name _, _⟩ :: ps    => unclosedFrom (name :: names) ps
  | n :: names, ⟨.stop name, _⟩ :: ps  => if name = n then unclosedFrom names ps else none
  | [], ⟨.stop _, _⟩ :: _              => none

/-- The elements that a text leaves open, the innermost first; none where an end tag has no start
tag to close. -/
def unclosed? (s : String) : Option (List Name) :=
  (pieces? s).bind (unclosedFrom [])

mutual

theorem unclosedFrom_pieces (names : List Name) (ps : List Piece) :
    (e : Element) → unclosedFrom names (e.pieces ++ ps) = unclosedFrom names ps
  | ⟨name, href, text, children, tail⟩ => by
      rw [Element.pieces, List.cons_append, List.append_assoc, unclosedFrom,
        unclosedFrom_piecesAll, List.singleton_append, unclosedFrom, if_pos rfl]

theorem unclosedFrom_piecesAll (names : List Name) (ps : List Piece) :
    (es : List Element) → unclosedFrom names (Element.piecesAll es ++ ps) = unclosedFrom names ps
  | [] => by rw [Element.piecesAll, List.nil_append]
  | e :: es => by
      rw [Element.piecesAll, List.append_assoc, unclosedFrom_pieces, unclosedFrom_piecesAll]

end

theorem unclosedFrom_written (stack : List Open) (done : List Element) (ps : List Piece) :
    unclosedFrom [] (written stack done ++ ps) = unclosedFrom (stack.map Open.name) ps := by
  induction stack generalizing done ps with
  | nil => exact unclosedFrom_piecesAll [] ps done
  | cons o stack ih =>
      rw [written, List.append_assoc, ih, List.cons_append, unclosedFrom, unclosedFrom_piecesAll]
      rfl

/-! ### Texts with open elements -/

/-- What is written when the elements `done` have just ended in the innermost of the open ones. -/
def openHtml (stack : List Open) (done : List Element) : String :=
  String.join ((written stack done).map Piece.html)

theorem unclosed?_openHtml (stack : List Open) (done : List Element) :
    unclosed? (openHtml stack done) = some (stack.map Open.name) := by
  have := unclosedFrom_written stack done []
  rw [List.append_nil] at this
  rw [unclosed?, openHtml, pieces?_html, Option.bind_some, this, unclosedFrom]

theorem openHtml_append (stack : List Open) (done es : List Element) :
    openHtml stack (done ++ es) = openHtml stack done ++ html es := by
  rw [openHtml, written_append, List.map_append, String.join_append]
  rfl

/-- A start tag opens an element. -/
theorem openHtml_open (stack : List Open) (o : Open) (es : List Element) :
    openHtml (o :: stack) es =
      openHtml stack o.before ++ (Piece.mk (.start o.name o.href) o.text).html ++ html es := by
  rw [openHtml, written, List.map_append, String.join_append, List.map_cons, String.join_cons,
    ← String.append_assoc]
  rfl

/-- Its end tag closes it. -/
theorem openHtml_close (stack : List Open) (o : Open) (done : List Element) (tail : String) :
    openHtml stack (o.before ++ [⟨o.name, o.href, o.text, done, tail⟩]) =
      openHtml (o :: stack) done ++ (Piece.mk (.stop o.name) tail).html := by
  rw [openHtml_append, html_singleton, openHtml_open]
  simp only [String.append_assoc]

/-! ### States -/

/-- The elements that a state says are open, the innermost first: a list inside an item for each of
the nested ones, and the outer list of the document. -/
def State.unclosed (s : State) : List Name :=
  if s.started then (List.replicate s.nested [.ul, .li]).flatten ++ [.ul] else []

/-- The open elements that go with a state, and the elements that have ended in the innermost of
them.  In front of a document, and between two, there are whole documents only. -/
inductive Stands : State → List Open → List Element → Prop where
  | between {docs : List Element} (h : ∀ e ∈ docs, e.name = .ul) : Stands ⟨false, 0⟩ [] docs
  | outer {docs done : List Element} (h : ∀ e ∈ docs, e.name = .ul) :
      Stands ⟨true, 0⟩ [⟨.ul, none, "\n", docs⟩] done
  | inner {nested : Nat} {stack : List Open} {before label done : List Element}
      (h : Stands ⟨true, nested⟩ stack before) :
      Stands ⟨true, nested + 1⟩
        (⟨.ul, none, "\n", label⟩ :: ⟨.li, none, "", before⟩ :: stack) done

variable {s : State} {nested : Nat} {stack : List Open} {done : List Element}

theorem Stands.map_name (h : Stands s stack done) : stack.map Open.name = s.unclosed := by
  induction h with
  | between => rfl
  | outer => rfl
  | inner _ ih =>
      rw [List.map_cons, List.map_cons, ih]
      rfl

/-- Elements may end in the innermost list. -/
theorem Stands.append (h : Stands ⟨true, nested⟩ stack done) (es : List Element) :
    Stands ⟨true, nested⟩ stack (done ++ es) := by
  cases h with
  | outer h => exact .outer h
  | inner h => exact .inner h

theorem Stands.eq_nil (h : Stands ⟨false, nested⟩ stack done) :
    stack = [] ∧ ∀ e ∈ done, e.name = .ul := by
  cases h with
  | between h => exact ⟨rfl, h⟩

theorem html_start_ul : (Piece.mk (.start .ul none) "\n").html = "<ul>\n" := by decide

theorem html_stop_ul : (Piece.mk (.stop .ul) "\n").html = "</ul>\n" := by decide

theorem html_start_li : (Piece.mk (.start .li none) "").html = "<li>" := by decide

theorem html_stop_li : (Piece.mk (.stop .li) "\n").html = "</li>\n" := by decide

/-- The outer list is opened where no document has begun. -/
theorem Stands.begin (h : Stands s stack done) :
    ∃ stack' done', Stands ⟨true, s.nested⟩ stack' done' ∧
      openHtml stack' done' = openHtml stack done ++ if s.started then "" else "<ul>\n" := by
  cases h with
  | between h =>
      refine ⟨_, [], .outer h, ?_⟩
      rw [openHtml_open, html_nil, html_start_ul, String.append_empty]
      rfl
  | outer h => exact ⟨_, _, .outer h, (String.append_empty).symm⟩
  | inner h => exact ⟨_, _, .inner h, (String.append_empty).symm⟩

/-- The innermost list is closed, and the item around it. -/
theorem Stands.close (h : Stands ⟨true, nested + 1⟩ stack done) :
    ∃ stack' done', Stands ⟨true, nested⟩ stack' done' ∧
      openHtml stack' done' = openHtml stack done ++ "</ul>\n</li>\n" := by
  cases h with
  | @inner _ stack before label _ h =>
      have list := openHtml_close (⟨.li, none, "", before⟩ :: stack) ⟨.ul, none, "\n", label⟩ done
        "\n"
      have item := openHtml_close stack ⟨.li, none, "", before⟩
        (label ++ [⟨.ul, none, "\n", done, "\n"⟩]) "\n"
      have tags : "</ul>\n" ++ "</li>\n" = "</ul>\n</li>\n" := by decide
      refine ⟨_, _, h.append _, item.trans ?_⟩
      rw [list, html_stop_ul, html_stop_li, String.append_assoc, tags]

theorem closing_of_le {depth : Nat} (h : nested ≤ depth) : closing nested depth = "" := by
  rw [closing, Nat.sub_eq_zero_of_le h]
  rfl

/-- The innermost list is the first to be closed. -/
theorem closing_succ_left {depth : Nat} (h : depth ≤ nested) :
    closing (nested + 1) depth = "</ul>\n</li>\n" ++ closing nested depth := by
  rw [closing, closing, Nat.sub_add_comm h, repeatText, List.replicate_succ, String.join_cons]
  rfl

/-- The lists below a depth are closed. -/
theorem Stands.closeTo (h : Stands ⟨true, nested⟩ stack done) (depth : Nat) :
    ∃ stack' done', Stands ⟨true, min nested depth⟩ stack' done' ∧
      openHtml stack' done' = openHtml stack done ++ closing nested depth := by
  induction nested generalizing stack done with
  | zero =>
      refine ⟨stack, done, ?_, ?_⟩
      · rwa [Nat.zero_min]
      · rw [closing_of_le (Nat.zero_le depth), String.append_empty]
  | succ nested ih =>
      rcases Nat.lt_or_ge nested depth with lt | le
      · refine ⟨stack, done, ?_, ?_⟩
        · rwa [Nat.min_eq_left lt]
        · rw [closing_of_le lt, String.append_empty]
      · obtain ⟨stack₁, done₁, h₁, e₁⟩ := h.close
        obtain ⟨stack₂, done₂, h₂, e₂⟩ := ih h₁
        refine ⟨stack₂, done₂, ?_, ?_⟩
        · rwa [Nat.min_eq_right (Nat.le_succ_of_le le), ← Nat.min_eq_right le]
        · rw [e₂, e₁, closing_succ_left le, String.append_assoc]

/-- A leaf is an element of the innermost list. -/
theorem openHtml_leaf (stack : List Open) (done : List Element) (e : Entry) :
    openHtml stack (done ++ [(Item.mk e.text e.href []).element]) =
      openHtml stack done ++ item e ++ "</li>\n" := by
  rw [openHtml_append, Drawing.html_leaf e.text e.href e.depth e.isLast, String.append_assoc]
  rfl

/-- Any other item stays open, and so does the list below its label. -/
theorem openHtml_branch (stack : List Open) (done : List Element) (e : Entry) :
    openHtml (⟨.ul, none, "\n", [Item.label e.text e.href "\n"]⟩ :: ⟨.li, none, "", done⟩ :: stack)
        [] =
      openHtml stack done ++ item e ++ "\n<ul>\n" := by
  have label : item e = "<li>" ++ html [Item.label e.text e.href ""] :=
    Drawing.html_item e.text e.href e.depth e.isLeaf e.isLast
  have tag : "\n" ++ "<ul>\n" = "\n<ul>\n" := by decide
  rw [openHtml_open, openHtml_open, html_start_ul, html_start_li, html_nil, Drawing.html_label,
    escape_newline, label, ← tag]
  simp only [String.append_assoc, String.append_empty]

/-- At the end of a document all its elements are closed. -/
theorem Stands.finish (h : Stands ⟨true, nested⟩ stack done) :
    ∃ stack' docs, Stands ⟨false, 0⟩ stack' docs ∧
      openHtml stack' docs = openHtml stack done ++ (closing nested 0 ++ "</ul>\n") := by
  obtain ⟨stack₁, done₁, h₁, e₁⟩ := h.closeTo 0
  rw [Nat.min_zero] at h₁
  cases h₁ with
  | @outer docs _ h₁ =>
      refine ⟨[], docs ++ [⟨.ul, none, "\n", done₁, "\n"⟩], .between ?_, ?_⟩
      · intro e he
        rcases List.mem_append.mp he with he | he
        · exact h₁ e he
        · rw [List.mem_singleton.mp he]
      · have := openHtml_close [] ⟨.ul, none, "\n", docs⟩ done₁ "\n"
        rw [this, e₁, html_stop_ul, String.append_assoc]

/-! ### Marks -/

/-- Behind a mark, the open elements go with the state behind it. -/
theorem Stands.mark (h : Stands s stack done) (m : Mark) :
    ∃ stack' done', Stands (Drawing.html.mark s m).1 stack' done' ∧
      openHtml stack' done' = openHtml stack done ++ (Drawing.html.mark s m).2 := by
  cases m with
  | entry e =>
      obtain ⟨stack₁, done₁, h₁, e₁⟩ := h.begin
      obtain ⟨stack₂, done₂, h₂, e₂⟩ := h₁.closeTo e.depth
      simp only [Drawing.mark, Drawing.html]
      cases e.isLeaf with
      | true =>
          refine ⟨_, _, h₂.append [(Item.mk e.text e.href []).element], ?_⟩
          rw [openHtml_leaf, e₂, e₁]
          simp only [if_true, String.append_assoc]
      | false =>
          refine ⟨_, _, .inner h₂, (openHtml_branch stack₂ done₂ e).trans ?_⟩
          rw [e₂, e₁]
          simp only [Bool.false_eq_true, if_false, String.append_assoc]
  | finish =>
      cases h with
      | between h => exact ⟨[], _, .between h, (String.append_empty).symm⟩
      | outer h => exact (Stands.outer h).finish
      | inner h => exact (Stands.inner h).finish

/-- Behind a run of marks too. -/
theorem Stands.run (h : Stands s stack done) (ms : List Mark) :
    ∃ stack' done', Stands (Drawing.html.run s ms).1 stack' done' ∧
      openHtml stack' done' = openHtml stack done ++ String.join (Drawing.html.run s ms).2 := by
  induction ms generalizing s stack done with
  | nil => exact ⟨stack, done, h, (String.append_empty).symm⟩
  | cons m ms ih =>
      obtain ⟨stack₁, done₁, h₁, e₁⟩ := h.mark m
      obtain ⟨stack₂, done₂, h₂, e₂⟩ := ih h₁
      refine ⟨stack₂, done₂, h₂, ?_⟩
      rw [e₂, e₁, Drawing.run_cons, String.join_cons, String.append_assoc]

/-! ### Special characters -/

/-- The special characters of a text, in their order. -/
def specialsIn (s : String) : List Char :=
  s.toList.filter (· ∈ specials)

theorem specialsIn_append (s t : String) : specialsIn (s ++ t) = specialsIn s ++ specialsIn t := by
  rw [specialsIn, String.toList_append, List.filter_append]
  rfl

theorem specialsIn_escape (s : String) : specialsIn (escape s) = [] := by
  refine List.filter_eq_nil_iff.mpr fun c hc special => ?_
  exact notMem_escape (of_decide_eq_true special) s hc

end Html

/-- The entry without its text, and with a link that says no more than that there is one. -/
def Entry.bare (e : Entry) : Entry :=
  { e with text := "", href := if e.href = "" then "" else "#" }

/-- The mark with its entry bare. -/
def Mark.bare : Mark → Mark
  | .entry e => .entry e.bare
  | .finish  => .finish

/-- The special characters around the text and the link of an entry do not depend on them. -/
theorem Html.specialsIn_item (e : Entry) : specialsIn (item e.bare) = specialsIn (item e) := by
  by_cases h : e.href = ""
  · have bare : e.bare.href = "" := if_pos h
    rw [item, item, if_pos h, if_pos bare]
    simp only [specialsIn_append, specialsIn_escape]
  · have bare : e.bare.href ≠ "" := by
      rw [show e.bare.href = "#" from if_neg h]
      decide
    rw [item, item, if_neg h, if_neg bare]
    simp only [specialsIn_append, specialsIn_escape]

namespace Drawing

/-- A bare mark leads to the same state, with the same special characters. -/
theorem html_mark_bare (s : Html.State) (m : Mark) :
    (html.mark s m.bare).1 = (html.mark s m).1 ∧
      Html.specialsIn (html.mark s m.bare).2 = Html.specialsIn (html.mark s m).2 := by
  cases m with
  | finish => exact ⟨rfl, rfl⟩
  | entry e =>
      have depth : e.bare.depth = e.depth := rfl
      have leaf : e.bare.isLeaf = e.isLeaf := rfl
      simp only [mark, Mark.bare, html, depth, leaf]
      cases e.isLeaf <;> simp [Html.specialsIn_append, Html.specialsIn_item]

theorem html_run_bare (s : Html.State) (ms : List Mark) :
    Html.specialsIn (String.join (html.run s (ms.map Mark.bare)).2) =
      Html.specialsIn (String.join (html.run s ms).2) := by
  induction ms generalizing s with
  | nil => rfl
  | cons m ms ih =>
      obtain ⟨state, text⟩ := html_mark_bare s m
      rw [List.map_cons, run_cons, run_cons, String.join_cons, String.join_cons,
        Html.specialsIn_append, Html.specialsIn_append, text, state, ih]

/-! ### Any use -/

variable {σ : Type}

/-- The state of a fresh drawing after some marks. -/
def after (d : Drawing σ) (ms : List Mark) : σ :=
  (d.run d.start ms).1

/-- What a fresh drawing has written for them. -/
def output (d : Drawing σ) (ms : List Mark) : String :=
  String.join (d.run d.start ms).2

theorem after_concat (d : Drawing σ) (ms : List Mark) (m : Mark) :
    d.after (ms ++ [m]) = (d.mark (d.after ms) m).1 := by
  rw [after, run_append]
  rfl

theorem html_started_entry (s : Html.State) (e : Entry) :
    (html.mark s (.entry e)).1.started = true := by
  simp only [mark, html]
  cases e.isLeaf <;> rfl

theorem html_started_finish (s : Html.State) : (html.mark s .finish).1.started = false := by
  obtain ⟨started, nested⟩ := s
  cases started <;> rfl

/-- A document is open exactly behind an entry. -/
theorem html_started_after (ms : List Mark) :
    (html.after ms).started = true ↔ ∃ e, ms.getLast? = some (.entry e) := by
  rcases List.eq_nil_or_concat ms with rfl | ⟨ms, m, rfl⟩
  · simp [after, run, html]
  · rw [List.concat_eq_append, after_concat, List.getLast?_concat]
    cases m with
    | entry e => simp [html_started_entry]
    | finish => simp [html_started_finish]

/-- Some open elements go with the state of the drawing, and what it has written is what is
written with them. -/
theorem html_stands (ms : List Mark) :
    ∃ stack done, Html.Stands (html.after ms) stack done ∧
      html.output ms = Html.openHtml stack done := by
  have start : Html.Stands html.start [] [] := .between (by simp)
  obtain ⟨stack, done, h, e⟩ := start.run ms
  have none : Html.openHtml [] [] = "" := rfl
  rw [none, String.empty_append] at e
  exact ⟨stack, done, h, e.symm⟩

/-- Whatever the marks, every end tag closes the innermost open element.  Behind an entry, and
nowhere else, a document is open: its list, and an item with a list in it for each of the nested
ones.  Behind an end the text is a row of whole documents.  All special characters of the text are
those of its tags: they are the same when the labels and links are taken away. -/
theorem html_balanced (ms : List Mark) :
    Html.unclosed? (html.output ms) = some (html.after ms).unclosed ∧
      ((html.after ms).started = true ↔ ∃ e, ms.getLast? = some (.entry e)) ∧
      (∃ docs, html.output (ms ++ [.finish]) = Html.html docs ∧ ∀ d ∈ docs, d.name = .ul) ∧
      Html.specialsIn (html.output ms) = Html.specialsIn (html.output (ms.map Mark.bare)) := by
  refine ⟨?_, html_started_after ms, ?_, (html_run_bare html.start ms).symm⟩
  · obtain ⟨stack, done, h, e⟩ := html_stands ms
    rw [e, Html.unclosed?_openHtml, h.map_name]
  · obtain ⟨stack, docs, h, e⟩ := html_stands (ms ++ [.finish])
    have closed : (html.after (ms ++ [.finish])).started = false := by
      rw [after_concat, html_started_finish]
    generalize html.after (ms ++ [.finish]) = s at h closed
    obtain ⟨started, nested⟩ := s
    obtain rfl : started = false := closed
    obtain ⟨rfl, lists⟩ := h.eq_nil
    exact ⟨docs, e, lists⟩

example : html.output [.finish, .entry ⟨"a<", "x'", 7, false, true⟩,
    .entry ⟨"b", "", 0, false, true⟩, .finish, .finish] =
      "<ul>\n<li><a href=\"x&#x27;\">a&lt;</a>\n<ul>\n</ul>\n</li>\n" ++
        "<li><span>b</span>\n<ul>\n</ul>\n</li>\n</ul>\n" := by decide

end Drawing

end Sidebar
