import Sidebar.Toml.Word

/-!
# Toml — the reader of values

Keys are single names or names joined by points.  A value is a string, a bare word, an array, or an
inline table.  Inside the brackets of an array or an inline table line breaks and comments may stand
between the tokens, though not inside a key, and a comma may follow the last item.

Reading recurses on the levels of nesting that are still allowed; `size` exceeds the length of the
text and bounds the number of characters and items.
-/

namespace Sidebar.Toml

/-- The deepest nesting of arrays and inline tables, and the greatest number of names in a key. -/
def maxNesting : Nat := 80

/-! ### Blanks and comments -/

/-- The text without blanks in front. -/
def skipSpace (s : List Char) : List Char :=
  s.dropWhile isSpace

/-- Skips blanks, line breaks and comments, from inside a comment or not. -/
def skipLines : Bool → List Char → Option (List Char)
  | _, []                      => some []
  | _, '\n' :: s               => skipLines false s
  | _, '\r' :: '\n' :: s       => skipLines false s
  | true, c :: s               => if isPlain c then skipLines true s else none
  | false, c :: s              =>
    if isSpace c then skipLines false s
    else if c = '#' then skipLines true s
    else some (c :: s)

/-- The text after the rest of a line, which holds nothing but a comment. -/
def endOfLine (s : List Char) : Option (List Char) :=
  match skipSpace s with
  | []       => some []
  | '#' :: s =>
    match s.dropWhile isPlain with
    | [] => some []
    | s  => lineBreak? s
  | s => lineBreak? s

/-! ### Keys -/

/-- A character of a bare key. -/
def isKeyPart (c : Char) : Bool :=
  c.isAlphanum || c == '_' || c == '-'

/-- One name of a key. -/
def keyName (size : Nat) : Reader String
  | '"' :: s  => lineString size ('"' :: s)
  | '\'' :: s => lineString size ('\'' :: s)
  | s =>
    match s.takeWhile isKeyPart with
    | [] => none
    | ds => some (String.ofList ds, s.dropWhile isKeyPart)

/-- The names of a key, at most the first number of them: those in front of the last one, and the
last one.  Blanks may stand around names. -/
def key (size : Nat) : Nat → Reader (List String × String)
  | 0, _        => none
  | room + 1, s => do
    let (name, s) ← keyName size (skipSpace s)
    match skipSpace s with
    | '.' :: s => do
      let ((path, last), s) ← key size room s
      some ((name :: path, last), s)
    | s => some (([], name), s)

/-! ### Values -/

/-- The items of an array after its bracket or a comma, up to and with the closing bracket; at
most the first number of them. -/
def items (item : Reader Value) : Nat → Reader (List Value)
  | 0, _     => none
  | n + 1, s => do
    match ← skipLines false s with
    | ']' :: s => some ([], s)
    | s =>
      let (v, s) ← item s
      match ← skipLines false s with
      | ',' :: s => do
        let (vs, s) ← items item n s
        some (v :: vs, s)
      | ']' :: s => some ([v], s)
      | _        => none

/-- A key, the sign `=` and a value, with gaps around the sign. -/
def field (size : Nat) (skipGap : List Char → Option (List Char)) (item : Reader Value) :
    Reader ((List String × String) × Value) :=
  fun s => do
    let (k, s) ← key size maxNesting s
    match ← skipGap s with
    | '=' :: s => do
      let (v, s) ← item (← skipGap s)
      some ((k, v), s)
    | _ => none

/-- The fields of an inline table after its brace or a comma, up to and with the closing brace,
added to those before them; at most the first number of them. -/
def inlineFields (size : Nat) (item : Reader Value) : Nat → Value → Reader Value
  | 0, _, _         => none
  | n + 1, table, s => do
    match ← skipLines false s with
    | '}' :: s => some (table, s)
    | s =>
      let (((path, last), v), s) ← field size (skipLines false) item s
      let table ← table.addAt path last v
      match ← skipLines false s with
      | ',' :: s => inlineFields size item n table s
      | '}' :: s => some (table, s)
      | _        => none

/-- A value that is neither an array nor an inline table. -/
def scalar (size : Nat) : Reader Value
  | '"' :: s  => do let (t, s) ← anyString size ('"' :: s); some (.string t, s)
  | '\'' :: s => do let (t, s) ← anyString size ('\'' :: s); some (.string t, s)
  | s =>
    let (word, s) := bareWord s
    (Value.ofWord? word).map (·, s)

/-- A value with at most so many levels of nesting. -/
def value (size : Nat) : Nat → Reader Value
  | 0, s =>
    match s with
    | '[' :: _ => none
    | '{' :: _ => none
    | s        => scalar size s
  | levels + 1, s =>
    match s with
    | '[' :: s => do
      let (vs, s) ← items (fun s => value size levels s) size s
      some (.array vs, s)
    | '{' :: s => inlineFields size (fun s => value size levels s) size (.empty .inline) s
    | s        => scalar size s

end Sidebar.Toml
