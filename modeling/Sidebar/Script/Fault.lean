import Sidebar.Text.Position

/-!
# Script — faults

A reader of a menu script stops at the first fault.  It reports the cause and the text that was
left, from which the position in the whole text follows.
-/

namespace Sidebar.Script

open Sidebar.Text

/-- Why a menu script cannot be read. -/
inductive Cause where
  | variableNameMissing
  | missing (c : Char)
  | trailing (c : Char)
  | unexpected (c : Char)
  | endOfInput
  | keyMissing (found : Char)
  | duplicateKey (key : String)
  | fieldUnended
  | itemUnended
  | unterminatedString
  | invalidEscape (c : Char)
  | invalidUnicodeEscape
  | unpairedSurrogate
  | unterminatedComment
  | tooDeep
deriving DecidableEq, Repr

/-- The deepest nesting of records and sequences. -/
def maxNesting : Nat := 128

/-- The wording of a cause. -/
def Cause.message : Cause → String
  | .variableNameMissing  => "expected variable name"
  | .missing c            => s!"expected `{c}`"
  | .trailing c           => s!"unexpected trailing content `{c}`"
  | .unexpected c         => s!"unexpected character `{c}`"
  | .endOfInput           => "unexpected end of input"
  | .keyMissing c         => s!"expected key, found `{c}`"
  | .duplicateKey key     => s!"duplicate key `{key}`"
  | .fieldUnended         => "expected `,` or `\x7d`"
  | .itemUnended          => "expected `,` or `]`"
  | .unterminatedString   => "unterminated string"
  | .invalidEscape c      => s!"invalid escape `\\{c}`"
  | .invalidUnicodeEscape => "invalid unicode escape"
  | .unpairedSurrogate    => "unpaired surrogate in unicode escape"
  | .unterminatedComment  => "unterminated comment"
  | .tooDeep              => s!"nesting deeper than {maxNesting} levels"

/-- A cause and the text from the place it stands at. -/
structure Fault where
  cause : Cause
  rest : List Char

/-- The fault at its position in the whole text `s`, of which `f.rest` is the end. -/
def Fault.locate (s : List Char) (f : Fault) : Located Cause :=
  ⟨f.cause, Position.after (s.take (s.length - f.rest.length))⟩

/-- A step of reading: a result and the text after it, or the first fault. -/
abbrev Reader (α : Type) : Type := List Char → Except Fault (α × List Char)

end Sidebar.Script
