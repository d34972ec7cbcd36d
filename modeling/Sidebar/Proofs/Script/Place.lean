import Sidebar.Proofs.Script.Grammar

/-!
# Script — places in a script

Going through a script from the left, as far as it is one, one comes to places where a value, an
item or a field may begin.  At a field the keys of the record are known that have come before it.

* `Reaches`: from the beginning of a text one comes to a place.
* `Repeats`: a place where a key has come before.
* `Unclosed`: a place where a comment begins that does not end.
-/

namespace Sidebar.Script

open Sidebar.Text

/-- What may begin at a place: a value, an item of a sequence, or a field of a record behind fields
with some keys, the last of them first. -/
inductive Place where
  | value
  | item
  | field (seen : List String)

/-- From the beginning of the text one comes to a place, with so much of the text left there. -/
inductive Reaches (text : List Char) : Place → List Char → Prop where
  | document {s r : List Char} (g : Gap text s) (a : r = s ∨ Assignment s r) :
      Reaches text .value r
  | items {s : List Char} (h : Reaches text .value ('[' :: s)) : Reaches text .item s
  | item {s r : List Char} (h : Reaches text .item s) (g : Gap s r) : Reaches text .value r
  | nextItem {s s₁ s₂ r : List Char} {v : Value} (h : Reaches text .item s) (g₁ : Gap s s₁)
      (hv : Denotes s₁ v s₂) (g₂ : Gap s₂ (',' :: r)) : Reaches text .item r
  | fields {s : List Char} (h : Reaches text .value ('{' :: s)) : Reaches text (.field []) s
  | field {seen : List String} {s s₁ s₂ s₃ r : List Char} {k : String}
      (h : Reaches text (.field seen) s) (g₁ : Gap s s₁) (hk : Key s₁ k s₂)
      (g₂ : Gap s₂ (':' :: s₃)) (g₃ : Gap s₃ r) : Reaches text .value r
  | nextField {seen : List String} {s s₁ s₂ r : List Char} {f : String × Value}
      (h : Reaches text (.field seen) s) (g₁ : Gap s s₁) (hf : Field s₁ f s₂)
      (g₂ : Gap s₂ (',' :: r)) : Reaches text (.field (f.1 :: seen)) r

/-- A field of a record begins here, with a key that an earlier field of the record has. -/
def Repeats (text : List Char) (k : String) (r : List Char) : Prop :=
  ∃ seen s, Reaches text (.field seen) s ∧ Gap s r ∧ k ∈ seen ∧ ∃ t, Key r k t

/-- A comment begins here that is not closed. -/
def Unclosed (r : List Char) : Prop :=
  ∃ w, r = '/' :: '*' :: w ∧ ¬ ['*', '/'] <:+: w

end Sidebar.Script
