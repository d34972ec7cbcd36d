import Sidebar.Text.Class
import Sidebar.Text.Unprintable

/-!
# Text — quoted texts

A text in double quotes in which every character can be seen: quotes, backslashes and the common
controls have an escape of one letter, and whatever cannot be seen for itself is given by its code
point.
-/

namespace Sidebar.Text

/-- The character cannot be seen for itself. -/
def isUnprintable (c : Char) : Bool :=
  decide (c.toNat < 0x20) || c.toNat == 0x7F ||
    (decide (0x80 ≤ c.toNat) && inRanges unprintableRanges c.toNat)

/-- The spelling of one character in a quoted text. -/
def spellQuoted (c : Char) : List Char :=
  match c with
  | '"'    => ['\\', '"']
  | '\\'   => ['\\', '\\']
  | '\n'   => ['\\', 'n']
  | '\r'   => ['\\', 'r']
  | '\t'   => ['\\', 't']
  | '\x00' => ['\\', '0']
  | c      =>
    if isUnprintable c then ['\\', 'u', '\x7b'] ++ Nat.toDigits 16 c.toNat ++ ['\x7d'] else [c]

/-- A text in double quotes. -/
def quoted (s : String) : String :=
  String.ofList ('"' :: (s.toList.flatMap spellQuoted ++ ['"']))

end Sidebar.Text
