import Sidebar.Text.CodeUnit
import Sidebar.Json.Fault

/-!
# Json — blanks, words and strings

The tokens of a JSON document other than numbers.  A string stands between double quotes and
holds no control character; a character is spelled by itself, by a letter after a backslash, or
by the escapes of its code units.
-/

namespace Sidebar.Json

open Sidebar.Text

/-- The four characters that may stand between tokens. -/
def isSpace (c : Char) : Bool :=
  c == ' ' || c == '\n' || c == '\t' || c == '\r'

/-- The text after the blanks it begins with. -/
def skipSpace (s : List Char) : List Char :=
  s.dropWhile isSpace

/-- The text after the letters `w`. -/
def word : List Char → List Char → Except Fault (List Char)
  | [], s          => .ok s
  | _ :: _, []     => stopAt .endInValue []
  | d :: w, c :: s => if c = d then word w s else stopBehind 1 .wordMisspelt (c :: s)

/-! ### Strings -/

/-- The code unit spelled by the next four bytes. -/
def codeUnit (s : List Char) : Except Fault (Nat × List Char) :=
  if bytes (s.take 4) < 4 then stopAt .endInString []
  else
    match s with
    | a :: b :: c :: d :: r =>
      match hexValue? a, hexValue? b, hexValue? c, hexValue? d with
      | some a, some b, some c, some d => .ok (((a * 16 + b) * 16 + c) * 16 + d, r)
      | _, _, _, _ => stopBehind 4 .invalidEscape s
    | _ => stopBehind 4 .invalidEscape s

/-- The character `c`, which joins the halves of a pair. -/
def join (c : Char) : List Char → Except Fault (List Char)
  | []     => stopAt .endInString []
  | d :: s => if d = c then .ok s else stopBehind 1 .pairUnended (d :: s)

/-- The character spelled after `\u`: a code unit, or a high unit and the escape of a low one. -/
def unicodeEscape : Reader Char := fun s => do
  let (u, s) ← codeUnit s
  if CodeUnit.isLow u then stopAt .unpairedSurrogate s
  else if CodeUnit.isHigh u then
    let s ← join '\\' s
    let s ← join 'u' s
    let (v, s) ← codeUnit s
    if CodeUnit.isLow v then .ok (Char.ofNat (CodeUnit.ofPair u v), s)
    else stopAt .unpairedSurrogate s
  else .ok (Char.ofNat u, s)

/-- The character that one letter after a backslash stands for. -/
def shortEscape? : Char → Option Char
  | '"'  => some '"'
  | '\\' => some '\\'
  | '/'  => some '/'
  | 'b'  => some '\x08'
  | 'f'  => some '\x0c'
  | 'n'  => some '\n'
  | 'r'  => some '\r'
  | 't'  => some '\t'
  | _    => none

/-- The character spelled after a backslash. -/
def escape : Reader Char
  | []       => stopAt .endInString []
  | 'u' :: s => unicodeEscape s
  | c :: s   =>
    match shortEscape? c with
    | some d => .ok (d, s)
    | none   => stopBehind 1 .invalidEscape (c :: s)

/-- The characters up to the closing quote, which is consumed; at most the first number of
them. -/
def stringBody : Nat → Reader (List Char)
  | 0, s          => stopAt .endInString s
  | _ + 1, []     => stopAt .endInString []
  | n + 1, c :: s =>
    if c = '"' then .ok ([], s)
    else if c = '\\' then do
      let (d, s) ← escape s
      let (ds, s) ← stringBody n s
      .ok (d :: ds, s)
    else if c < ' ' then stopBehind 1 .controlCharacter (c :: s)
    else do
      let (ds, s) ← stringBody n s
      .ok (c :: ds, s)

/-- The string after an opening quote; `size` exceeds the length of the text. -/
def quoted (size : Nat) : Reader String := fun s => do
  let (cs, s) ← stringBody size s
  .ok (String.ofList cs, s)

end Sidebar.Json
