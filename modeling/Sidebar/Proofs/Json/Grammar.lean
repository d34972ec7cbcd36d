import Sidebar.Proofs.Text.Spelling
import Sidebar.Json.Reader

/-!
# Json — the grammar of documents

The language of JSON documents, stated apart from its reader.  A relation such as `Space s r`
says that the text `s` begins with a phrase and goes on with `r`; a number, which ends where its
characters run out, says so of `r`.

`Document s v`: the whole text `s` is a document of the value `v`.
-/

namespace Sidebar.Json

open Sidebar.Text

/-- Any row of blanks. -/
def Space (s r : List Char) : Prop := ∃ w, (∀ c ∈ w, isSpace c) ∧ s = w ++ r

/-! ### Strings -/

/-- The characters that may stand for themselves in a string. -/
def Plain (c : Char) : Prop := c ≠ '"' ∧ c ≠ '\\' ∧ ¬ c < ' '

/-- The letters that may stand after a backslash, each with its character. -/
def shortEscapes : List (Char × Char) :=
  [('"', '"'), ('\\', '\\'), ('/', '/'), ('b', '\x08'), ('f', '\x0c'), ('n', '\n'), ('r', '\r'),
    ('t', '\t')]

/-- The characters of `k`, spelled between double quotes. -/
def Quoted (s : List Char) (k : String) (r : List Char) : Prop :=
  ∃ t, s = '"' :: (t ++ '"' :: r) ∧ Spells Plain shortEscapes t k.toList

/-! ### Numbers -/

/-- A row of digits, not empty. -/
def Digits (ds : List Char) : Prop := ds ≠ [] ∧ ∀ c ∈ ds, c.isDigit

/-- Digits of which the first is zero only when it is the only one. -/
def Whole (ds : List Char) : Prop := Digits ds ∧ ∀ c t, ds = c :: t → c = '0' → t = []

/-- The spellings of a fraction, each with its digits. -/
inductive Fraction : List Char → List Char → Prop where
  | none : Fraction [] []
  | digits {ds : List Char} (h : Digits ds) : Fraction ('.' :: ds) ds

/-- The spellings of a sign of an exponent; `true` is minus. -/
def signs : List (List Char × Bool) := [([], false), (['+'], false), (['-'], true)]

/-- The spellings of an exponent, each with its value.  One above `maxExponent` is for zero
alone. -/
inductive Exponent (isZero : Bool) : List Char → Int → Prop where
  | none : Exponent isZero [] 0
  | digits {e : Char} {sign ds : List Char} {negative : Bool} (he : e = 'e' ∨ e = 'E')
      (hs : (sign, negative) ∈ signs) (h : Digits ds)
      (small : digitsValue ds ≤ maxExponent ∨ negative || isZero) :
      Exponent isZero (e :: (sign ++ ds))
        (if negative then -(digitsValue ds : Int) else digitsValue ds)

/-- A number without its sign, as long as it can be, that a double can hold. -/
inductive Number (negative : Bool) : List Char → Decimal → List Char → Prop where
  | mk {s whole f fraction x r : List Char} {exponent : Int} (text : s = whole ++ f ++ x ++ r)
      (hw : Whole whole) (hf : Fraction f fraction)
      (hx : Exponent ((whole ++ fraction).all (· == '0')) x exponent)
      (ends : ∀ c ∈ r.head?, ¬ c.isDigit ∧ (x = [] → c ≠ 'e' ∧ c ≠ 'E') ∧
        (x = [] → f = [] → c ≠ '.'))
      (held : isOutOfRange (heldBy whole fraction exponent).1 (heldBy whole fraction exponent).2
        = false) :
      Number negative s ⟨negative, digitsValue (whole ++ fraction), exponent - fraction.length⟩ r

/-! ### Values -/

mutual

/-- A scalar, a sequence, or a record whose keys differ. -/
inductive Denotes : List Char → Value → List Char → Prop where
  | null {r : List Char} : Denotes ("null".toList ++ r) .null r
  | true {r : List Char} : Denotes ("true".toList ++ r) (.boolean true) r
  | false {r : List Char} : Denotes ("false".toList ++ r) (.boolean false) r
  | number {s r : List Char} {n : Decimal} (h : Number false s n r) : Denotes s (.number n) r
  | negative {s r : List Char} {n : Decimal} (h : Number true s n r) :
      Denotes ('-' :: s) (.number n) r
  | string {s r : List Char} {k : String} (h : Quoted s k r) : Denotes s (.string k) r
  | sequence {s r : List Char} {vs : List Value} (h : Items s vs r) :
      Denotes ('[' :: s) (.sequence vs) r
  | record {s r : List Char} {fs : List (String × Value)} (h : Fields s fs r)
      (distinct : (fs.map (·.1)).Nodup) : Denotes ('{' :: s) (.record fs) r

/-- Items up to the closing bracket. -/
inductive Items : List Char → List Value → List Char → Prop where
  | close {s r : List Char} (g : Space s (']' :: r)) : Items s [] r
  | first {s s₁ s₂ r : List Char} {v : Value} {vs : List Value} (g : Space s s₁)
      (h : Denotes s₁ v s₂) (t : MoreItems s₂ vs r) : Items s (v :: vs) r

/-- Items with a comma in front of each, up to the closing bracket. -/
inductive MoreItems : List Char → List Value → List Char → Prop where
  | close {s r : List Char} (g : Space s (']' :: r)) : MoreItems s [] r
  | next {s s₁ s₂ s₃ r : List Char} {v : Value} {vs : List Value} (g₁ : Space s (',' :: s₁))
      (g₂ : Space s₁ s₂) (h : Denotes s₂ v s₃) (t : MoreItems s₃ vs r) : MoreItems s (v :: vs) r

/-- A key, a colon and a value. -/
inductive Field : List Char → String × Value → List Char → Prop where
  | mk {s s₁ s₂ s₃ r : List Char} {k : String} {v : Value} (hk : Quoted s k s₁)
      (g₁ : Space s₁ (':' :: s₂)) (g₂ : Space s₂ s₃) (h : Denotes s₃ v r) : Field s (k, v) r

/-- Fields up to the closing brace. -/
inductive Fields : List Char → List (String × Value) → List Char → Prop where
  | close {s r : List Char} (g : Space s ('}' :: r)) : Fields s [] r
  | first {s s₁ s₂ r : List Char} {f : String × Value} {fs : List (String × Value)}
      (g : Space s s₁) (h : Field s₁ f s₂) (t : MoreFields s₂ fs r) : Fields s (f :: fs) r

/-- Fields with a comma in front of each, up to the closing brace. -/
inductive MoreFields : List Char → List (String × Value) → List Char → Prop where
  | close {s r : List Char} (g : Space s ('}' :: r)) : MoreFields s [] r
  | next {s s₁ s₂ s₃ r : List Char} {f : String × Value} {fs : List (String × Value)}
      (g₁ : Space s (',' :: s₁)) (g₂ : Space s₁ s₂) (h : Field s₂ f s₃)
      (t : MoreFields s₃ fs r) : MoreFields s (f :: fs) r

end

/-- One value between blanks. -/
def Document (s : List Char) (v : Value) : Prop :=
  ∃ s₁ s₂, Space s s₁ ∧ Denotes s₁ v s₂ ∧ Space s₂ []

end Sidebar.Json
