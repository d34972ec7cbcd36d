import Sidebar.Proofs.Text.Spelling
import Sidebar.Script.Reader

/-!
# Script — the grammar of menu scripts

The language of menu scripts, stated apart from its reader.  A relation such as `Gap s r` says
that the text `s` begins with a phrase and goes on with `r`; a phrase that ends where its
characters run out, a name or a line comment, says so of `r`.

`Document s v`: the whole text `s` is a script of the value `v`.
-/

namespace Sidebar.Script

open Sidebar.Text

/-! ### Gaps -/

/-- The text begins with a line break, or is at its end. -/
def LineEnd (s : List Char) : Prop := ∀ c ∈ s.head?, c = '\n'

/-- White space, comments that run to the end of the line, and comments that the first `*/`
closes, in any mix. -/
inductive Gap : List Char → List Char → Prop where
  | none {s : List Char} : Gap s s
  | blank {c : Char} {s r : List Char} (h : isBlank c) (t : Gap s r) : Gap (c :: s) r
  | line {w s r : List Char} (h : '\n' ∉ w) (e : LineEnd s) (t : Gap s r) :
      Gap ('/' :: '/' :: (w ++ s)) r
  | block {w s r : List Char} (h : ¬ ['*', '/'] <:+: w ++ ['*']) (t : Gap s r) :
      Gap ('/' :: '*' :: (w ++ '*' :: '/' :: s)) r

/-! ### Names, strings and keys -/

/-- The longest run of name characters, the first of which may begin a name. -/
structure Name (s w r : List Char) : Prop where
  text : s = w ++ r
  first : ∃ c ∈ w.head?, isNameStart c
  parts : ∀ c ∈ w, isNamePart c
  ends : ∀ c ∈ r.head?, ¬ isNamePart c

/-- The characters that may stand for themselves between two quotes. -/
def Plain (quote c : Char) : Prop := c ≠ quote ∧ c ≠ '\\' ∧ c ≠ '\n'

/-- The letters that may stand after a backslash, each with its character. -/
def shortEscapes : List (Char × Char) :=
  [('n', '\n'), ('t', '\t'), ('r', '\r'), ('b', '\x08'), ('f', '\x0c'), ('"', '"'),
    ('\'', '\''), ('\\', '\\'), ('/', '/')]

/-- The characters of `k`, spelled between two quotes of one kind. -/
def Quoted (s : List Char) (k : String) (r : List Char) : Prop :=
  ∃ quote t, isQuote quote ∧ s = quote :: (t ++ quote :: r) ∧
    Spells (Plain quote) shortEscapes t k.toList

/-- A name or a string. -/
def Key (s : List Char) (k : String) (r : List Char) : Prop :=
  Name s k.toList r ∨ Quoted s k r

/-! ### Values -/

mutual

/-- A string, a sequence, or a record whose keys differ. -/
inductive Denotes : List Char → Value → List Char → Prop where
  | string {s r : List Char} {k : String} (h : Quoted s k r) : Denotes s (.string k) r
  | sequence {s r : List Char} {vs : List Value} (h : Items s vs r) :
      Denotes ('[' :: s) (.sequence vs) r
  | record {s r : List Char} {fs : List (String × Value)} (h : Fields s fs r)
      (distinct : (fs.map (·.1)).Nodup) : Denotes ('{' :: s) (.record fs) r

/-- Items with a comma after each, which the last one may lack, and the closing bracket. -/
inductive Items : List Char → List Value → List Char → Prop where
  | close {s r : List Char} (g : Gap s (']' :: r)) : Items s [] r
  | last {s s₁ s₂ r : List Char} {v : Value} (g₁ : Gap s s₁) (h : Denotes s₁ v s₂)
      (g₂ : Gap s₂ (']' :: r)) : Items s [v] r
  | next {s s₁ s₂ s₃ r : List Char} {v : Value} {vs : List Value} (g₁ : Gap s s₁)
      (h : Denotes s₁ v s₂) (g₂ : Gap s₂ (',' :: s₃)) (t : Items s₃ vs r) : Items s (v :: vs) r

/-- A key, a colon and a value. -/
inductive Field : List Char → String × Value → List Char → Prop where
  | mk {s s₁ s₂ s₃ r : List Char} {k : String} {v : Value} (hk : Key s k s₁)
      (g₁ : Gap s₁ (':' :: s₂)) (g₂ : Gap s₂ s₃) (h : Denotes s₃ v r) : Field s (k, v) r

/-- Fields with a comma after each, which the last one may lack, and the closing brace. -/
inductive Fields : List Char → List (String × Value) → List Char → Prop where
  | close {s r : List Char} (g : Gap s ('}' :: r)) : Fields s [] r
  | last {s s₁ s₂ r : List Char} {f : String × Value} (g₁ : Gap s s₁) (h : Field s₁ f s₂)
      (g₂ : Gap s₂ ('}' :: r)) : Fields s [f] r
  | next {s s₁ s₂ s₃ r : List Char} {f : String × Value} {fs : List (String × Value)}
      (g₁ : Gap s s₁) (h : Field s₁ f s₂) (g₂ : Gap s₂ (',' :: s₃)) (t : Fields s₃ fs r) :
      Fields s (f :: fs) r

end

/-! ### Documents -/

/-- `name =`, with a declarator in front of a name that may be any, or without one in front of a
name that is none. -/
inductive Assignment : List Char → List Char → Prop where
  | declared {s s₁ s₂ s₃ s₄ r w x : List Char} (hw : Name s w s₁) (d : w ∈ declarators)
      (g₁ : Gap s₁ s₂) (hx : Name s₂ x s₃) (g₂ : Gap s₃ ('=' :: s₄)) (g₃ : Gap s₄ r) :
      Assignment s r
  | bare {s s₁ s₂ r w : List Char} (hw : Name s w s₁) (d : w ∉ declarators)
      (g₁ : Gap s₁ ('=' :: s₂)) (g₂ : Gap s₂ r) : Assignment s r

/-- A gap, and a semicolon with another gap or none, at the end of the text. -/
def Ending (s : List Char) : Prop :=
  Gap s [] ∨ ∃ t, Gap s (';' :: t) ∧ Gap t []

/-- A whole script. -/
def Document (s : List Char) (v : Value) : Prop :=
  ∃ s₁ s₂ s₃, Gap s s₁ ∧ (s₂ = s₁ ∨ Assignment s₁ s₂) ∧ Denotes s₂ v s₃ ∧ Ending s₃

end Sidebar.Script
