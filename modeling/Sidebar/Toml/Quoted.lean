import Sidebar.Text.CodeUnit

/-!
# Toml — strings

A string stands between one or three quotes of a kind.  Between double quotes a backslash begins
an escape.  A string between three quotes may run over lines: a line break right after the opening
quotes is dropped, and one or two quotes may stand inside and right before the closing ones.
Control characters other than the tab are refused.
-/

namespace Sidebar.Toml

open Sidebar.Text

/-- A step of reading: a result and the text after it, or nothing for a malformed text. -/
abbrev Reader (α : Type) : Type := List Char → Option (α × List Char)

/-- A character that may stand in a comment or a string. -/
def isPlain (c : Char) : Bool :=
  c == '\t' || (decide (' ' ≤ c) && c != '\x7f')

/-- A blank. -/
def isSpace (c : Char) : Bool :=
  c == ' ' || c == '\t'

/-- The text after a line break. -/
def lineBreak? : List Char → Option (List Char)
  | '\n' :: s         => some s
  | '\r' :: '\n' :: s => some s
  | _                 => none

/-! ### Escapes -/

/-- The number of `n` hexadecimal digits, `u` being what came before. -/
def hexNumber : Nat → Nat → Reader Nat
  | 0, u, s          => some (u, s)
  | _ + 1, _, []     => none
  | n + 1, u, c :: s => do
    let d ← hexValue? c
    hexNumber n (u * 16 + d) s

/-- The character whose code point is spelled in `n` hexadecimal digits. -/
def codePoint (n : Nat) : Reader Char := fun s => do
  let (u, s) ← hexNumber n 0 s
  if h : u.isValidChar then some (Char.ofNatAux u h, s) else none

/-- The character spelled after a backslash. -/
def escape : Reader Char
  | 'b' :: s  => some ('\x08', s)
  | 't' :: s  => some ('\t', s)
  | 'n' :: s  => some ('\n', s)
  | 'f' :: s  => some ('\x0c', s)
  | 'r' :: s  => some ('\r', s)
  | 'e' :: s  => some ('\x1b', s)
  | '"' :: s  => some ('"', s)
  | '\\' :: s => some ('\\', s)
  | 'x' :: s  => codePoint 2 s
  | 'u' :: s  => codePoint 4 s
  | 'U' :: s  => codePoint 8 s
  | _         => none

/-! ### Strings on one line -/

/-- The characters up to a closing double quote; at most the first number of them. -/
def basicBody : Nat → Reader (List Char)
  | 0, _            => none
  | _ + 1, []       => none
  | n + 1, c :: s   =>
    if c = '"' then some ([], s)
    else if c = '\\' then do
      let (d, s) ← escape s
      let (ds, s) ← basicBody n s
      some (d :: ds, s)
    else if isPlain c then do
      let (ds, s) ← basicBody n s
      some (c :: ds, s)
    else none

/-- The characters up to a closing single quote. -/
def literalBody : Reader (List Char)
  | []     => none
  | c :: s =>
    if c = '\'' then some ([], s)
    else if isPlain c then do
      let (ds, s) ← literalBody s
      some (c :: ds, s)
    else none

/-! ### Strings over several lines -/

/-- The text without a line break in front. -/
def dropLineBreak (s : List Char) : List Char :=
  (lineBreak? s).getD s

/-- The text after blanks and line breaks; at most the first number of them. -/
def dropBlanks : Nat → List Char → List Char
  | 0, s     => s
  | n + 1, s =>
    match s with
    | ' ' :: r         => dropBlanks n r
    | '\t' :: r        => dropBlanks n r
    | '\n' :: r        => dropBlanks n r
    | '\r' :: '\n' :: r => dropBlanks n r
    | s                => s

/-- The quotes that end a string between three of them: those beyond the third belong to the
string. -/
def closing (quote : Char) (s : List Char) : Option (List Char × List Char) :=
  let quotes := s.takeWhile (· == quote)
  if quotes.length < 3 then none
  else
    let inside := min (quotes.length - 3) 2
    some (quotes.take inside, s.drop (inside + 3))

/-- The characters up to three closing quotes; at most the first number of them. -/
def longBody (quote : Char) : Nat → Reader (List Char)
  | 0, _     => none
  | n + 1, s =>
    match closing quote s with
    | some found => some found
    | none =>
      match s with
      | [] => none
      | '\r' :: '\n' :: r => do
        let (ds, r) ← longBody quote n r
        some ('\r' :: '\n' :: ds, r)
      | c :: r =>
        if c = '\\' ∧ quote = '"' then
          match lineBreak? (r.dropWhile isSpace) with
          | some r => longBody quote n (dropBlanks r.length r)
          | none => do
            let (d, r) ← escape r
            let (ds, r) ← longBody quote n r
            some (d :: ds, r)
        else if c = '\n' ∨ isPlain c then do
          let (ds, r) ← longBody quote n r
          some (c :: ds, r)
        else none

/-! ### Tokens -/

/-- A string on one line. -/
def lineString (size : Nat) : Reader String
  | '"' :: s  => do let (ds, s) ← basicBody size s; some (String.ofList ds, s)
  | '\'' :: s => do let (ds, s) ← literalBody s; some (String.ofList ds, s)
  | _         => none

/-- A string of any kind. -/
def anyString (size : Nat) : Reader String
  | '"' :: '"' :: '"' :: s => do
    let (ds, s) ← longBody '"' size (dropLineBreak s)
    some (String.ofList ds, s)
  | '\'' :: '\'' :: '\'' :: s => do
    let (ds, s) ← longBody '\'' size (dropLineBreak s)
    some (String.ofList ds, s)
  | s => lineString size s

end Sidebar.Toml
