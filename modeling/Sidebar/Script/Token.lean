import Sidebar.Text.Class
import Sidebar.Text.CodeUnit
import Sidebar.Script.Fault

/-!
# Script — gaps, names and strings

The tokens of a menu script.  A gap is any mix of white space, `//` comments and `/* */`
comments.  A name begins with a letter, `_` or `$` and goes on as long as letters, numbers, `_`
and `$` do.  A string stands between two quotes of one kind, on one line.
-/

namespace Sidebar.Script

open Sidebar.Text

/-! ### Gaps -/

/-- What a gap is in the middle of.  A block comment remembers the text it began at. -/
inductive GapMode where
  | blank
  | line
  | block (start : List Char)

/-- Skips white space and comments. -/
def skipGap : GapMode → List Char → Except Fault (List Char)
  | .blank, '/' :: '/' :: s => skipGap .line s
  | .blank, '/' :: '*' :: s => skipGap (.block ('/' :: '*' :: s)) s
  | .blank, c :: s          => if isBlank c then skipGap .blank s else .ok (c :: s)
  | .blank, []              => .ok []
  | .line, c :: s           => if c = '\n' then skipGap .blank s else skipGap .line s
  | .line, []               => .ok []
  | .block _, '*' :: '/' :: s => skipGap .blank s
  | .block start, _ :: s    => skipGap (.block start) s
  | .block start, []        => .error ⟨.unterminatedComment, start⟩

/-- The text after the gap it begins with. -/
def gap (s : List Char) : Except Fault (List Char) :=
  skipGap .blank s

/-! ### Names -/

/-- A character that a name may begin with. -/
def isNameStart (c : Char) : Bool :=
  isLetter c || c == '_' || c == '$'

/-- A character that a name may go on with. -/
def isNamePart (c : Char) : Bool :=
  isLetterOrNumber c || c == '_' || c == '$'

/-- The longest name the text begins with, and the rest. -/
def name (s : List Char) : List Char × List Char :=
  (s.takeWhile isNamePart, s.dropWhile isNamePart)

theorem name_append (s : List Char) : (name s).1 ++ (name s).2 = s :=
  List.takeWhile_append_dropWhile

/-! ### Strings -/

/-- Either quote. -/
def isQuote (c : Char) : Bool :=
  c == '"' || c == '\''

/-- `n` more hexadecimal digits of a code unit that so far is `u`. -/
def codeUnit : Nat → Nat → Reader Nat
  | 0, u, s          => .ok (u, s)
  | _ + 1, _, []     => .error ⟨.invalidUnicodeEscape, []⟩
  | n + 1, u, c :: s =>
    match hexValue? c with
    | some d => codeUnit n (u * 16 + d) s
    | none   => .error ⟨.invalidUnicodeEscape, s⟩

/-- The character `c`, or the fault just after what stands in its place. -/
def must (c : Char) (cause : Cause) : List Char → Except Fault (List Char)
  | []     => .error ⟨cause, []⟩
  | d :: s => if d = c then .ok s else .error ⟨cause, s⟩

/-- The character spelled after `\u`: a code unit, or a high unit and the escape of a low one. -/
def unicodeEscape : Reader Char := fun s => do
  let (u, s) ← codeUnit 4 0 s
  if CodeUnit.isHigh u then
    let s ← must '\\' .unpairedSurrogate s
    let s ← must 'u' .unpairedSurrogate s
    let (v, s) ← codeUnit 4 0 s
    if CodeUnit.isLow v then .ok (Char.ofNat (CodeUnit.ofPair u v), s)
    else .error ⟨.unpairedSurrogate, s⟩
  else if CodeUnit.isLow u then .error ⟨.invalidUnicodeEscape, s⟩
  else .ok (Char.ofNat u, s)

/-- The character that one letter after a backslash stands for. -/
def shortEscape? : Char → Option Char
  | 'n'  => some '\n'
  | 't'  => some '\t'
  | 'r'  => some '\r'
  | 'b'  => some '\x08'
  | 'f'  => some '\x0c'
  | '"'  => some '"'
  | '\'' => some '\''
  | '\\' => some '\\'
  | '/'  => some '/'
  | _    => none

/-- The character spelled after a backslash. -/
def escape : Reader Char
  | []       => .error ⟨.unterminatedString, []⟩
  | 'u' :: s => unicodeEscape s
  | c :: s   =>
    match shortEscape? c with
    | some d => .ok (d, s)
    | none   => .error ⟨.invalidEscape c, s⟩

/-- The characters up to the closing quote, which is consumed; at most the first number of
them. -/
def stringBody (quote : Char) : Nat → Reader (List Char)
  | 0, s          => .error ⟨.unterminatedString, s⟩
  | _ + 1, []     => .error ⟨.unterminatedString, []⟩
  | n + 1, c :: s =>
    if c = quote then .ok ([], s)
    else if c = '\\' then do
      let (d, s) ← escape s
      let (ds, s) ← stringBody quote n s
      .ok (d :: ds, s)
    else if c = '\n' then .error ⟨.unterminatedString, s⟩
    else do
      let (ds, s) ← stringBody quote n s
      .ok (c :: ds, s)

/-- The string after an opening quote; `size` exceeds the length of the text. -/
def quoted (size : Nat) (quote : Char) : Reader String := fun s => do
  let (cs, s) ← stringBody quote size s
  .ok (String.ofList cs, s)

end Sidebar.Script
