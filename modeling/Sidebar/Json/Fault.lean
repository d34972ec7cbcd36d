import Sidebar.Text.Position

/-!
# Json — faults

A reader of a JSON document stops at the first fault.  The fault keeps the number of bytes that
were left at its place.  That place is either where reading stands or some bytes further on: a
reader that has looked at the next byte points behind it, and one that takes four bytes of an
escape at once points behind all four.

A fault is told by its wording and its place.  The wording is taken from what is printed, which
ends with the place.
-/

namespace Sidebar.Json

open Sidebar.Text

/-- Why a document cannot be read. -/
inductive Cause where
  | endInList
  | endInObject
  | endInString
  | endInValue
  | colonMissing
  | itemUnended
  | fieldUnended
  | wordMisspelt
  | valueMissing
  | keyMissing
  | invalidEscape
  | invalidNumber
  | numberOutOfRange
  | controlCharacter
  | unpairedSurrogate
  | pairUnended
  | trailingComma
  | trailing
  | tooDeep
  | duplicateKey (key : String)
deriving DecidableEq, Repr

/-- The wording of a cause. -/
def Cause.message : Cause → String
  | .endInList         => "EOF while parsing a list"
  | .endInObject       => "EOF while parsing an object"
  | .endInString       => "EOF while parsing a string"
  | .endInValue        => "EOF while parsing a value"
  | .colonMissing      => "expected `:`"
  | .itemUnended       => "expected `,` or `]`"
  | .fieldUnended      => "expected `,` or `\x7d`"
  | .wordMisspelt      => "expected ident"
  | .valueMissing      => "expected value"
  | .keyMissing        => "key must be a string"
  | .invalidEscape     => "invalid escape"
  | .invalidNumber     => "invalid number"
  | .numberOutOfRange  => "number out of range"
  | .controlCharacter  => "control character (\\u0000-\\u001F) found while parsing a string"
  | .unpairedSurrogate => "lone leading surrogate in hex escape"
  | .pairUnended       => "unexpected end of hex escape"
  | .trailingComma     => "trailing comma"
  | .trailing          => "trailing characters"
  | .tooDeep           => "recursion limit exceeded"
  | .duplicateKey key  => s!"duplicate key `{key}`"

/-- A cause and the number of bytes left at its place. -/
structure Fault where
  cause : Cause
  bytesLeft : Nat
deriving DecidableEq, Repr

/-- The fault at its position in the whole text `s`. -/
def Fault.locate (s : List Char) (f : Fault) : Located Cause :=
  ⟨f.cause, Position.atByte s (bytes s - f.bytesLeft)⟩

/-! ### Telling a fault -/

/-- What is printed of a fault: the wording of its cause, and its place. -/
def print (f : Located Cause) : String :=
  s!"{f.cause.message} at line {f.position.line} column {f.position.column}"

/-- What stands between a wording and its place. -/
def placeMark : String := " at line "

/-- The text in front of the last occurrence of a mark. -/
def beforeLast? (mark : List Char) : List Char → Option (List Char)
  | []     => if mark.isPrefixOf [] then some [] else none
  | c :: s =>
    match beforeLast? mark s with
    | some t => some (c :: t)
    | none   => if mark.isPrefixOf (c :: s) then some [] else none

/-- What is told of a fault: the print of it up to the last mark of a place, and the place. -/
def told (f : Located Cause) : Located String :=
  let cut := beforeLast? placeMark.toList (print f).toList
  ⟨(cut.map String.ofList).getD (print f), f.position⟩

/-! ### Steps of reading -/

/-- A step of reading: a result and the text after it, or the first fault. -/
abbrev Reader (α : Type) : Type := List Char → Except Fault (α × List Char)

/-- Stops where reading stands. -/
def stopAt {α : Type} (cause : Cause) (s : List Char) : Except Fault α :=
  .error ⟨cause, bytes s⟩

/-- Stops behind the next `n` bytes, or at the end. -/
def stopBehind {α : Type} (n : Nat) (cause : Cause) (s : List Char) : Except Fault α :=
  .error ⟨cause, bytes s - n⟩

/-- Stops with `atEnd` at the end of the text, and with `cause` behind its next byte elsewhere. -/
def stopBefore {α : Type} (atEnd cause : Cause) : List Char → Except Fault α
  | []     => stopAt atEnd []
  | c :: s => stopBehind 1 cause (c :: s)

end Sidebar.Json
