import Sidebar.Toml.Moment
import Sidebar.Toml.Number
import Sidebar.Toml.Quoted
import Sidebar.Toml.Table

/-!
# Toml — bare words

A value that is neither quoted nor bracketed is a bare word: a truth value, a number or a moment.
How the word begins and what comes after its first digits decide what it has to be.

* `append_bareWord`: a word and the text after it make up the text.
-/

namespace Sidebar.Toml

/-! ### Where a word ends -/

/-- A character of a bare word. -/
def isWordPart (c : Char) : Bool :=
  !(['=', ',', '[', ']', '{', '}', '#', ' ', '\t', '\r', '\n'].contains c)

/-- After blanks comes a character with which a word goes on. -/
def goesOn (s : List Char) : Bool :=
  (s.dropWhile isSpace).head?.any fun c =>
    isWordPart c && !(['.', '"', '\''].contains c)

/-- The longest bare word, with the blanks inside it, and the text after it. -/
def bareWord : List Char → List Char × List Char
  | []     => ([], [])
  | c :: s =>
    if isWordPart c || isSpace c && goesOn s then
      let (word, r) := bareWord s
      (c :: word, r)
    else ([], c :: s)

theorem append_bareWord (s : List Char) : (bareWord s).1 ++ (bareWord s).2 = s := by
  induction s with
  | nil => rfl
  | cons c s ih =>
    rw [bareWord]
    split
    · simp [ih]
    · rfl

/-! ### What a word denotes -/

namespace Value

/-- The value of a number that denotes one or not. -/
def ofInt? : Option Int → Value
  | some n => .integer n
  | none   => .unreadable

/-- The value of an integer after the mark of its base. -/
def ofBased? (base : Nat) (s : List Char) : Option Value :=
  if isBased base s then some (ofInt? ((natural? base s).map Int.ofNat)) else none

/-- The value of a word that is a float. -/
def ofFloat? (word : List Char) : Option Value :=
  (float? word).map fun n => if overflows n.1 n.2 then .unreadable else .float

/-- The value of a word that begins with digits: a moment if a hyphen or a colon follows them, a
float if a point or an exponent comes anywhere later, and else an integer. -/
def ofDecimal? (word : List Char) : Option Value :=
  match (unsigned word).dropWhile Char.isDigit with
  | [] => if isDecimal word then some (ofInt? (decimal? word)) else none
  | c :: s =>
    if c = '-' ∨ c = ':' then
      if isMoment word then some .moment else none
    else if (c :: s).any (['.', 'e', 'E'].contains ·) then ofFloat? word
    else if c = '_' ∧ ' ' ∉ s ∧ isDecimal word then some (ofInt? (decimal? word))
    else none

/-- The value of a bare word. -/
def ofWord? (word : List Char) : Option Value :=
  if word = "true".toList then some (.boolean true)
  else if word = "false".toList then some (.boolean false)
  else match unsigned word with
    | []              => none
    | '0' :: 'x' :: s => if isSigned word then none else ofBased? 16 s
    | '0' :: 'o' :: s => if isSigned word then none else ofBased? 8 s
    | '0' :: 'b' :: s => if isSigned word then none else ofBased? 2 s
    | c :: s          =>
      if c.isDigit || c == '_' then ofDecimal? word
      else if c :: s = "inf".toList ∨ c :: s = "nan".toList then some .float
      else none

end Value

end Sidebar.Toml
