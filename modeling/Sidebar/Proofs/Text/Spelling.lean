import Sidebar.Text.CodeUnit

/-!
# Text — spellings of characters

Inside a string a character is spelled by itself, by a letter after a backslash, by the escape of
its code unit, or by the escapes of a pair of units.  The languages differ in which characters
may stand for themselves (`plain`) and in which letters they know (`short`).

* `Spells.mono`: a language that allows more spellings keeps the old ones.
-/

namespace Sidebar.Text

/-- The number that a row of hexadecimal digits spells. -/
def hexNumber? (ds : List Char) : Option Nat :=
  ds.foldlM (fun n c => (hexValue? c).map (n * 16 + ·)) 0

/-- `ds` are the four digits of the code unit `u`. -/
def FourDigits (ds : List Char) (u : Nat) : Prop :=
  ds.length = 4 ∧ hexNumber? ds = some u

/-- The spellings of one character. -/
inductive Spelling (plain : Char → Prop) (short : List (Char × Char)) :
    List Char → Char → Prop where
  | plain {c : Char} (h : plain c) : Spelling plain short [c] c
  | short {e c : Char} (h : (e, c) ∈ short) : Spelling plain short ['\\', e] c
  | unit {ds : List Char} {u : Nat} (hd : FourDigits ds u) (hh : ¬ CodeUnit.isHigh u)
      (hl : ¬ CodeUnit.isLow u) : Spelling plain short ('\\' :: 'u' :: ds) (Char.ofNat u)
  | pair {ds es : List Char} {u v : Nat} (hd : FourDigits ds u) (hh : CodeUnit.isHigh u)
      (he : FourDigits es v) (hl : CodeUnit.isLow v) :
      Spelling plain short ('\\' :: 'u' :: (ds ++ '\\' :: 'u' :: es))
        (Char.ofNat (CodeUnit.ofPair u v))

/-- The spellings of a row of characters, one after the other. -/
inductive Spells (plain : Char → Prop) (short : List (Char × Char)) :
    List Char → List Char → Prop where
  | nil : Spells plain short [] []
  | cons {t u cs : List Char} {c : Char} (h : Spelling plain short t c)
      (hs : Spells plain short u cs) : Spells plain short (t ++ u) (c :: cs)

variable {plain plain' : Char → Prop} {short short' : List (Char × Char)}

theorem Spelling.mono {t : List Char} {c : Char} (hp : ∀ c, plain c → plain' c)
    (hs : short ⊆ short') (h : Spelling plain short t c) : Spelling plain' short' t c := by
  cases h with
  | plain h => exact .plain (hp _ h)
  | short h => exact .short (hs h)
  | unit hd hh hl => exact .unit hd hh hl
  | pair hd hh he hl => exact .pair hd hh he hl

theorem Spells.mono {t cs : List Char} (hp : ∀ c, plain c → plain' c) (hs : short ⊆ short')
    (h : Spells plain short t cs) : Spells plain' short' t cs := by
  induction h with
  | nil => exact .nil
  | cons h _ ih => exact .cons (h.mono hp hs) ih

/-- A spelling is a character that may stand for itself, or begins with a backslash. -/
theorem Spelling.head {t : List Char} {c : Char} (h : Spelling plain short t c) :
    (t = [c] ∧ plain c) ∨ ∃ u, t = '\\' :: u ∧ u ≠ [] := by
  cases h with
  | plain h => exact .inl ⟨rfl, h⟩
  | short h => exact .inr ⟨_, rfl, by simp⟩
  | unit hd hh hl => exact .inr ⟨_, rfl, by simp⟩
  | pair hd hh he hl => exact .inr ⟨_, rfl, by simp⟩

/-- No spelling is empty. -/
theorem Spells.length_le {t cs : List Char} (h : Spells plain short t cs) :
    cs.length ≤ t.length := by
  induction h with
  | nil => exact Nat.le_refl 0
  | @cons t u cs c h _ ih =>
      have first : 0 < t.length := by
        rcases h.head with ⟨rfl, -⟩ | ⟨w, rfl, -⟩
        · exact Nat.one_pos
        · exact Nat.succ_pos _
      rw [List.length_cons, List.length_append]
      omega

end Sidebar.Text
