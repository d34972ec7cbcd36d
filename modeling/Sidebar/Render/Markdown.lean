import Sidebar.Render.Plain

/-!
# Render — Markdown lists

`Drawing.markdown` writes a bullet per entry, two blanks deeper with each level, with a link
where there is one.  Labels and links have special characters of their own, which get a
backslash; a blank in a link is written `%20`.
-/

namespace Sidebar

namespace Markdown

/-- The characters that get a backslash in a label. -/
def labelSpecials : List Char := ['\\', '[', ']', '*', '_', '`']

/-- The characters that get a backslash in a link. -/
def linkSpecials : List Char := ['\\', '(', ')']

/-- The spelling of one character of a label. -/
def spellLabel (c : Char) : List Char :=
  if c ∈ labelSpecials then ['\\', c] else [c]

/-- The spelling of one character of a link. -/
def spellLink (c : Char) : List Char :=
  if c = ' ' then ['%', '2', '0']
  else if c ∈ linkSpecials then ['\\', c]
  else [c]

/-- A label as it is written. -/
def label (s : String) : String :=
  String.ofList (s.toList.flatMap spellLabel)

/-- A link as it is written. -/
def link (s : String) : String :=
  String.ofList (s.toList.flatMap spellLink)

end Markdown

/-- A bullet list of links. -/
def Drawing.markdown : Drawing Unit where
  start := ()
  entry _ e :=
    let bullet := repeatText (2 * e.depth) " " ++ "- "
    let text := Markdown.label e.text
    ((), bullet ++
      if e.href = "" then text ++ "\n" else "[" ++ text ++ "](" ++ Markdown.link e.href ++ ")\n")
  finish _ := ((), "")

end Sidebar
