import Sidebar.Proofs.Render.Entity
import Sidebar.Proofs.Text.Step

/-!
# Render — reading markup

A reader of the markup that lists of links are written in.  It cuts a text at each `<` into pieces,
a tag and the text after it, and then puts the pieces together: an end tag closes the last element
that is still open, which must have its name.

* `pieces?_html`: cutting undoes writing.
* `build_eq_some_iff`: pieces are put together exactly when their tags are properly nested.
* `elements?_html`: elements are read back from their markup.
-/

namespace Sidebar.Html

/-! ### Elements and pieces -/

/-- The names of elements. -/
inductive Name where
  | ul
  | li
  | span
  | a
deriving DecidableEq, Repr

/-- How a name is written. -/
def Name.text : Name → String
  | .ul   => "ul"
  | .li   => "li"
  | .span => "span"
  | .a    => "a"

/-- A tag; a start tag may have a link. -/
inductive Tag where
  | start (name : Name) (href : Option String)
  | stop (name : Name)
deriving DecidableEq, Repr

/-- A tag and the text up to the next one. -/
structure Piece where
  tag : Tag
  text : String
deriving DecidableEq, Repr

/-- An element: the text in it before its first child, its children, and the text behind it. -/
structure Element where
  name : Name
  href : Option String
  text : String
  children : List Element
  tail : String

mutual

/-- The pieces of an element. -/
def Element.pieces : Element → List Piece
  | ⟨name, href, text, children, tail⟩ =>
    ⟨.start name href, text⟩ :: (Element.piecesAll children ++ [⟨.stop name, tail⟩])

/-- The pieces of some elements, one after the other. -/
def Element.piecesAll : List Element → List Piece
  | []      => []
  | e :: es => e.pieces ++ Element.piecesAll es

end

/-- How a tag is written, without its brackets. -/
def Tag.text : Tag → String
  | .start name none        => name.text
  | .start name (some href) => name.text ++ " href=\"" ++ escape href ++ "\""
  | .stop name              => "/" ++ name.text

/-- How a piece is written. -/
def Piece.html (p : Piece) : String :=
  "<" ++ p.tag.text ++ ">" ++ escape p.text

/-- How some elements are written. -/
def html (es : List Element) : String :=
  String.join ((Element.piecesAll es).map Piece.html)

/-! ### Cutting -/

/-- What stands before the first `<`, and what stands behind each. -/
def cut : List Char → List Char × List (List Char)
  | []     => ([], [])
  | c :: s =>
    if c = '<' then ([], (cut s).1 :: (cut s).2) else (c :: (cut s).1, (cut s).2)

/-- The name that is written so. -/
def name? (s : List Char) : Option Name :=
  [Name.ul, .li, .span, .a].find? fun n => n.text.toList == s

/-- The link of an attribute. -/
def href? (s : List Char) : Option String :=
  match s with
  | ' ' :: 'h' :: 'r' :: 'e' :: 'f' :: '=' :: '"' :: s =>
    if s.dropWhile (· != '"') = ['"'] then
      some (String.ofList (unescape (s.takeWhile (· != '"'))))
    else none
  | _ => none

/-- The tag that is written so between brackets. -/
def tag? (s : List Char) : Option Tag :=
  if s.head? = some '/' then (name? s.tail).map .stop
  else
    (name? (s.takeWhile (· != ' '))).bind fun name =>
      match s.dropWhile (· != ' ') with
      | []   => some (.start name none)
      | attr => (href? attr).map fun href => .start name (some href)

/-- The piece that stands so behind a `<`. -/
def piece? (s : List Char) : Option Piece :=
  match s.dropWhile (· != '>') with
  | _ :: text => (tag? (s.takeWhile (· != '>'))).map (⟨·, String.ofList (unescape text)⟩)
  | []        => none

/-- The pieces of a text that begins with a tag. -/
def pieces? (s : String) : Option (List Piece) :=
  match cut s.toList with
  | ([], pieces) => pieces.mapM piece?
  | _            => none

/-- A run of characters ends where another one stands for the first time. -/
theorem span_eq {c : Char} {s : List Char} (h : c ∉ s) (t : List Char) :
    (s ++ c :: t).takeWhile (· != c) = s ∧ (s ++ c :: t).dropWhile (· != c) = c :: t := by
  have run : ∀ d ∈ s, d != c := fun d hd => bne_iff_ne.mpr fun e => h (e ▸ hd)
  have stop : ∀ d ∈ (c :: t).head?, ¬ (d != c) = true := by simp
  exact ⟨Text.takeWhile_append_eq run stop, Text.dropWhile_append_eq run stop⟩

theorem cut_append {s : List Char} (h : '<' ∉ s) (t : List Char) :
    cut (s ++ t) = (s ++ (cut t).1, (cut t).2) := by
  induction s with
  | nil => rfl
  | cons c s ih =>
      have hc : c ≠ '<' := fun e => h (e ▸ List.mem_cons_self)
      rw [List.cons_append, cut, ih fun hs => h (List.mem_cons_of_mem c hs), if_neg hc]
      rfl

theorem name?_text (n : Name) : name? n.text.toList = some n := by
  cases n <;> rfl

/-- Names are made of letters. -/
theorem notMem_name {c : Char} (hc : c ∈ ' ' :: '/' :: specials) (n : Name) :
    c ∉ n.text.toList := by
  have all : ∀ c ∈ ' ' :: '/' :: specials, c ∉ n.text.toList := by
    cases n <;> simp [Name.text, specials]
  exact all c hc

theorem head?_name (n : Name) (s : List Char) : (n.text.toList ++ s).head? ≠ some '/' := by
  cases n <;> simp [Name.text]

theorem href?_escape (href : String) :
    href? (' ' :: 'h' :: 'r' :: 'e' :: 'f' :: '=' :: '"' :: ((escape href).toList ++ ['"'])) =
      some href := by
  obtain ⟨run, stop⟩ := span_eq (notMem_escape (c := '"') (by decide) href) []
  rw [href?, if_pos stop, run, unescape_escape, String.ofList_toList]

theorem tag?_text (tag : Tag) : tag? tag.text.toList = some tag := by
  match tag with
  | .start name none => cases name <;> rfl
  | .stop name => cases name <;> rfl
  | .start name (some href) =>
      have e : (Tag.start name (some href)).text.toList = name.text.toList ++
          ' ' :: 'h' :: 'r' :: 'e' :: 'f' :: '=' :: '"' :: ((escape href).toList ++ ['"']) := by
        simp [Tag.text]
      obtain ⟨run, stop⟩ := span_eq (notMem_name (c := ' ') (by decide) name)
        ('h' :: 'r' :: 'e' :: 'f' :: '=' :: '"' :: ((escape href).toList ++ ['"']))
      rw [e, tag?, if_neg (head?_name name _), run, stop, name?_text, Option.bind_some]
      simp only [href?_escape, Option.map_some]

theorem notMem_tag {c : Char} (hc : c = '<' ∨ c = '>') (tag : Tag) : c ∉ tag.text.toList := by
  have hs : c ∈ specials := by rcases hc with rfl | rfl <;> decide
  have name (n : Name) : c ∉ n.text.toList := notMem_name (by simp [hs]) n
  match tag with
  | .start n none => exact name n
  | .stop n =>
      rcases hc with rfl | rfl <;> simp [Tag.text, name n]
  | .start n (some href) =>
      have := notMem_escape hs href
      rcases hc with rfl | rfl <;> simp [Tag.text, name n, this]

/-- The characters of a piece behind its `<`. -/
def Piece.body (p : Piece) : List Char :=
  p.tag.text.toList ++ '>' :: (escape p.text).toList

theorem toList_html (p : Piece) : p.html.toList = '<' :: p.body := by
  simp [Piece.html, Piece.body]

theorem notMem_body (p : Piece) : '<' ∉ p.body := by
  have tag := notMem_tag (.inl rfl) p.tag
  have text := notMem_escape (c := '<') (by decide) p.text
  simp [Piece.body, tag, text]

theorem piece?_body (p : Piece) : piece? p.body = some p := by
  obtain ⟨run, stop⟩ := span_eq (notMem_tag (.inr rfl) p.tag) (escape p.text).toList
  rw [piece?, Piece.body, stop, run, tag?_text]
  simp only [Option.map_some, unescape_escape, String.ofList_toList]

theorem cut_html (ps : List Piece) :
    cut (String.join (ps.map Piece.html)).toList = ([], ps.map Piece.body) := by
  induction ps with
  | nil => rfl
  | cons p ps ih =>
      rw [List.map_cons, String.join_cons, String.toList_append, toList_html, List.cons_append, cut,
        cut_append (notMem_body p), ih, if_pos rfl, List.append_nil]
      rfl

/-- Cutting undoes writing. -/
theorem pieces?_html (ps : List Piece) : pieces? (String.join (ps.map Piece.html)) = some ps := by
  have all : (ps.map Piece.body).mapM piece? = some ps := by
    induction ps with
    | nil => rfl
    | cons p ps ih => rw [List.map_cons, List.mapM_cons, piece?_body, ih]; rfl
  rw [pieces?, cut_html]
  exact all

/-! ### Putting together -/

/-- An element that is not closed yet, behind the elements `before`. -/
structure Open where
  name : Name
  href : Option String
  text : String
  before : List Element

/-- The elements that some pieces make up, behind the elements `done` in the innermost of the open
ones. -/
def build : List Open → List Element → List Piece → Option (List Element)
  | [], done, []                                => some done
  | _ :: _, _, []                               => none
  | stack, done, ⟨.start name href, text⟩ :: ps => build (⟨name, href, text, done⟩ :: stack) [] ps
  | [], _, ⟨.stop _, _⟩ :: _                    => none
  | o :: stack, done, ⟨.stop name, tail⟩ :: ps  =>
    if name = o.name then build stack (o.before ++ [⟨name, o.href, o.text, done, tail⟩]) ps
    else none

/-- The elements of a text. -/
def elements? (s : String) : Option (List Element) :=
  (pieces? s).bind (build [] [])

mutual

theorem build_pieces (stack : List Open) (done : List Element) (ps : List Piece) :
    (e : Element) → build stack done (e.pieces ++ ps) = build stack (done ++ [e]) ps
  | ⟨name, href, text, children, tail⟩ => by
      rw [Element.pieces, List.cons_append, List.append_assoc, build, build_piecesAll,
        List.singleton_append, build, if_pos rfl]
      rfl

theorem build_piecesAll (stack : List Open) (done : List Element) (ps : List Piece) :
    (es : List Element) →
      build stack done (Element.piecesAll es ++ ps) = build stack (done ++ es) ps
  | [] => by rw [Element.piecesAll, List.nil_append, List.append_nil]
  | e :: es => by
      rw [Element.piecesAll, List.append_assoc, build_pieces, build_piecesAll, List.append_assoc]
      rfl

end

theorem piecesAll_append (es fs : List Element) :
    Element.piecesAll (es ++ fs) = Element.piecesAll es ++ Element.piecesAll fs := by
  induction es with
  | nil => rfl
  | cons e es ih =>
      rw [List.cons_append, Element.piecesAll, ih, Element.piecesAll, List.append_assoc]

/-- The pieces behind which the elements `done` have just ended. -/
def written : List Open → List Element → List Piece
  | [], done         => Element.piecesAll done
  | o :: stack, done =>
    written stack o.before ++ ⟨.start o.name o.href, o.text⟩ :: Element.piecesAll done

theorem written_append (stack : List Open) (done es : List Element) :
    written stack (done ++ es) = written stack done ++ Element.piecesAll es := by
  cases stack with
  | nil => exact piecesAll_append done es
  | cons o stack => rw [written, written, piecesAll_append, List.append_assoc, List.cons_append]

/-- What is put together is written with the pieces it was made of. -/
theorem written_of_build {stack : List Open} {done es : List Element} {ps : List Piece}
    (h : build stack done ps = some es) : written stack done ++ ps = Element.piecesAll es := by
  induction ps generalizing stack done with
  | nil =>
      cases stack with
      | nil =>
          obtain rfl := Option.some.inj h
          exact List.append_nil _
      | cons o stack => exact nomatch h
  | cons p ps ih =>
      obtain ⟨tag, text⟩ := p
      cases tag with
      | start name href =>
          rw [build] at h
          rw [← ih h, written, Element.piecesAll, List.append_assoc]
          rfl
      | stop name =>
          cases stack with
          | nil => exact nomatch h
          | cons o stack =>
              rw [build] at h
              split at h
              case isFalse => exact nomatch h
              case isTrue e =>
                rw [← ih h, written_append, written, Element.piecesAll, Element.piecesAll,
                  Element.pieces, e]
                simp

/-- Pieces are put together exactly when their tags are properly nested: when they are those of
some elements. -/
theorem build_eq_some_iff {ps : List Piece} {es : List Element} :
    build [] [] ps = some es ↔ ps = Element.piecesAll es := by
  constructor
  · exact written_of_build
  · rintro rfl
    have := build_piecesAll [] [] [] es
    rw [List.append_nil] at this
    exact this

example : build [] [] [⟨.start .ul none, ""⟩, ⟨.start .li none, ""⟩, ⟨.stop .ul, ""⟩,
    ⟨.stop .li, ""⟩] = none := rfl

/-! ### Writing -/

@[simp] theorem html_nil : html [] = "" := rfl

theorem html_append (es fs : List Element) : html (es ++ fs) = html es ++ html fs := by
  rw [html, piecesAll_append, List.map_append, String.join_append]
  rfl

theorem html_cons (e : Element) (es : List Element) : html (e :: es) = html [e] ++ html es :=
  html_append [e] es

/-- An element is written around its children. -/
theorem html_singleton (name : Name) (href : Option String) (text : String) (es : List Element)
    (tail : String) :
    html [⟨name, href, text, es, tail⟩] =
      (Piece.mk (.start name href) text).html ++ html es ++ (Piece.mk (.stop name) tail).html := by
  simp only [html, Element.piecesAll, Element.pieces, List.append_nil, List.map_cons,
    List.map_append, List.map_nil, String.join_cons, String.join_append, String.join_nil,
    String.append_empty, String.append_assoc]

/-- Elements are read back from their markup. -/
theorem elements?_html (es : List Element) : elements? (html es) = some es := by
  rw [elements?, html, pieces?_html, Option.bind_some, build_eq_some_iff]

theorem html_eq_empty {es : List Element} : html es = "" ↔ es = [] := by
  constructor
  · intro h
    have := elements?_html es
    rw [h] at this
    exact (Option.some.inj this).symm
  · rintro rfl
    exact html_nil

end Sidebar.Html
