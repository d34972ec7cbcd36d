import Sidebar.Render.Plain

/-!
# Render — nested HTML lists

`Drawing.html` writes nested lists.  A leaf closes its item on its own line; an entry with
entries below it leaves its item open around a list for them, which is closed when an entry of
its own level or above comes, or the end.
-/

namespace Sidebar

namespace Html

/-- The spelling of one character in HTML text. -/
def spell (c : Char) : List Char :=
  match c with
  | '&'  => "&amp;".toList
  | '<'  => "&lt;".toList
  | '>'  => "&gt;".toList
  | '"'  => "&quot;".toList
  | '\'' => "&#x27;".toList
  | c    => [c]

/-- The text with its special characters spelled as entities. -/
def escape (s : String) : String :=
  String.ofList (s.toList.flatMap spell)

theorem escape_append (s t : String) : escape (s ++ t) = escape s ++ escape t := by
  simp [escape, String.ofList_append]

/-- A document has begun, and so many lists are open inside items. -/
structure State where
  started : Bool
  nested : Nat
deriving DecidableEq, Repr

/-- The end tags that close the lists below a depth. -/
def closing (nested depth : Nat) : String :=
  repeatText (nested - depth) "</ul>\n</li>\n"

/-- The start of an item with its label. -/
def item (e : Entry) : String :=
  if e.href = "" then "<li><span>" ++ escape e.text ++ "</span>"
  else "<li><a href=\"" ++ escape e.href ++ "\">" ++ escape e.text ++ "</a>"

end Html

/-- Nested lists of links. -/
def Drawing.html : Drawing Html.State where
  start := ⟨false, 0⟩
  entry s e :=
    let opening := if s.started then "" else "<ul>\n"
    let nested := min s.nested e.depth
    let out := opening ++ Html.closing s.nested e.depth ++ Html.item e
    if e.isLeaf then (⟨true, nested⟩, out ++ "</li>\n")
    else (⟨true, nested + 1⟩, out ++ "\n<ul>\n")
  finish s :=
    if s.started then (⟨false, 0⟩, Html.closing s.nested 0 ++ "</ul>\n") else (s, "")

end Sidebar
