import Sidebar.Value
import Sidebar.Text.CodeUnit

/-!
# Json — the writer of documents

`write` turns a value into a JSON document in one of two layouts.  The compact layout has no
blanks.  The indented layout puts each item on a line of its own, two blanks deeper than the
brackets around it; an empty sequence or record stays on one line in both.
-/

namespace Sidebar.Json

open Sidebar.Text

/-- How the tokens of a document are laid out. -/
inductive Layout where
  | compact
  | indented
deriving DecidableEq, Repr

/-- What stands in front of an item that is `level` levels deep. -/
def Layout.lineBreak : Layout → Nat → List Char
  | .compact, _      => []
  | .indented, level => '\n' :: List.replicate (2 * level) ' '

/-- What stands between a key and its value. -/
def Layout.colon : Layout → List Char
  | .compact  => [':']
  | .indented => [':', ' ']

/-! ### Scalars -/

/-- The spelling of one character inside a string.  Quotes, backslashes and control characters
are escaped; everything else stands for itself. -/
def spell (c : Char) : List Char :=
  match c with
  | '"'    => ['\\', '"']
  | '\\'   => ['\\', '\\']
  | '\x08' => ['\\', 'b']
  | '\x0c' => ['\\', 'f']
  | '\n'   => ['\\', 'n']
  | '\r'   => ['\\', 'r']
  | '\t'   => ['\\', 't']
  | c      =>
    if c < ' ' then
      ['\\', 'u', '0', '0', hexDigit (c.toNat / 16), hexDigit (c.toNat % 16)]
    else [c]

/-- A string between its quotes. -/
def writeString (s : String) : List Char :=
  '"' :: (s.toList.flatMap spell ++ ['"'])

/-- A number as a coefficient and a power of ten. -/
def writeNumber (n : Decimal) : List Char :=
  (if n.negative then ['-'] else []) ++ (toString n.coefficient).toList ++
    (if n.exponent = 0 then [] else 'e' :: (toString n.exponent).toList)

/-! ### Documents -/

mutual

/-- The document of a value that stands `level` levels deep. -/
def write (layout : Layout) (level : Nat) : Value → List Char
  | .null          => "null".toList
  | .boolean true  => "true".toList
  | .boolean false => "false".toList
  | .number n      => writeNumber n
  | .string s      => writeString s
  | .sequence []   => ['[', ']']
  | .sequence (v :: vs) =>
    '[' :: (layout.lineBreak (level + 1) ++ write layout (level + 1) v ++
      writeItems layout (level + 1) vs ++ layout.lineBreak level ++ [']'])
  | .record []     => ['{', '}']
  | .record ((k, v) :: fs) =>
    '{' :: (layout.lineBreak (level + 1) ++ writeString k ++ layout.colon ++
      write layout (level + 1) v ++ writeFields layout (level + 1) fs ++
      layout.lineBreak level ++ ['}'])

/-- The items after the first, each after a comma. -/
def writeItems (layout : Layout) (level : Nat) : List Value → List Char
  | []      => []
  | v :: vs => ',' :: (layout.lineBreak level ++ write layout level v ++
      writeItems layout level vs)

/-- The fields after the first, each after a comma. -/
def writeFields (layout : Layout) (level : Nat) : List (String × Value) → List Char
  | []           => []
  | (k, v) :: fs => ',' :: (layout.lineBreak level ++ writeString k ++ layout.colon ++
      write layout level v ++ writeFields layout level fs)

end

/-- The document of a value. -/
def render (layout : Layout) (v : Value) : String :=
  String.ofList (write layout 0 v)

end Sidebar.Json
