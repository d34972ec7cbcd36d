import Sidebar.Render.Drawing

/-!
# Render — plain text

Two drawings write a line per entry, a label with its link in parentheses.  `Drawing.lines`
indents the label by its depth.  `Drawing.branches` puts it at the end of the branch of a tree
drawn with box characters.
-/

namespace Sidebar

/-- The text `s`, `n` times. -/
def repeatText (n : Nat) (s : String) : String :=
  String.join (List.replicate n s)

/-- A label and its link, if it has one. -/
def Entry.label (e : Entry) : String :=
  if e.href = "" then e.text ++ "\n" else e.text ++ " (" ++ e.href ++ ")\n"

namespace Drawing

/-- One line per entry, indented by its depth. -/
def lines (indent : Nat) : Drawing Unit where
  start := ()
  entry _ e := ((), repeatText (indent * e.depth) " " ++ e.label)
  finish _ := ((), "")

/-- The part of a branch that passes a level: a line if the level goes on below. -/
def segment (more : Bool) : String :=
  if more then "│   " else "    "

/-- The part of a branch that leads to an entry. -/
def corner (isLast : Bool) : String :=
  if isLast then "└── " else "├── "

/-- One branch per entry.  The state says for each open level whether it goes on below. -/
def branches : Drawing (List Bool) where
  start := []
  entry levels e :=
    let levels := levels.take e.depth
    (if e.isLeaf then levels else levels ++ [!e.isLast],
      String.join (levels.map segment) ++ corner e.isLast ++ e.label)
  finish levels := (levels, "")

end Drawing

end Sidebar
