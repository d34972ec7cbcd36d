import Sidebar.Proofs.Json.Token
import Sidebar.Json.Reader

/-!
# Json — which steps of reading blame a key

A fault of the reader may blame a key for having come before in its record.  Only the check of a
key does so.  The steps that read a token fail for other reasons, and a chain of steps blames a key
exactly where one of its steps does and those in front of it succeed.

* `Blames`: a step fails because of a key.
* `blames_bind`: a chain of steps.
* `Keyless`: a step that blames no key, as are all that read a token.
-/

namespace Sidebar.Json

open Sidebar.Text

/-! ### Blame -/

/-- A step of reading fails because the key has come before. -/
def Blames {α : Type} (k : String) (x : Except Fault α) : Prop :=
  ∃ b, x = .error ⟨.duplicateKey k, b⟩

variable {α β : Type} {k : String} {x : Except Fault α}

theorem Blames.bind (h : Blames k x) (f : α → Except Fault β) : Blames k (x >>= f) := by
  obtain ⟨b, rfl⟩ := h
  exact ⟨b, rfl⟩

theorem blames_repeated (k : String) (s : List Char) :
    Blames k (repeated k s : Except Fault α) := by
  unfold repeated
  split <;> exact ⟨_, rfl⟩

/-- A chain of steps blames a key where one of them does, and those in front of it succeed. -/
theorem blames_bind {f : α → Except Fault β} (h : Blames k (x >>= f)) :
    Blames k x ∨ ∃ a, x = .ok a ∧ Blames k (f a) := by
  cases x with
  | error e =>
      obtain ⟨b, same⟩ := h
      obtain rfl := Except.error.inj same
      exact .inl ⟨b, rfl⟩
  | ok a => exact .inr ⟨a, rfl, h⟩

theorem eq_of_blames_repeated {k' : String} {s : List Char}
    (h : Blames k (repeated k' s : Except Fault α)) : k' = k := by
  obtain ⟨b, e⟩ := h
  unfold repeated at e
  split at e <;> exact Cause.duplicateKey.inj (congrArg Fault.cause (Except.error.inj e))

/-! ### Steps that blame no key -/

/-- The key that a cause blames. -/
def Cause.key? : Cause → Option String
  | .duplicateKey key => some key
  | _                 => none

/-- A step of reading succeeds, or its fault blames no key. -/
inductive Keyless : Except Fault α → Prop where
  | ok (a : α) : Keyless (.ok a)
  | error {f : Fault} (h : f.cause.key? = none) : Keyless (.error f)

theorem Keyless.not_blames (h : Keyless x) : ¬ Blames k x := by
  rintro ⟨b, rfl⟩
  cases h with
  | error h => exact nomatch h

theorem Keyless.bind {f : α → Except Fault β} (h : Keyless x) (hf : ∀ a, Keyless (f a)) :
    Keyless (x >>= f) := by
  cases h with
  | ok a => exact hf a
  | error h => exact .error h

theorem keyless_stopBefore {c c' : Cause} (hc : c.key? = none) (hc' : c'.key? = none)
    (s : List Char) : Keyless (stopBefore c c' s : Except Fault α) := by
  cases s with
  | nil => exact .error hc
  | cons d s => exact .error hc'

theorem keyless_word (w s : List Char) : Keyless (word w s) := by
  fun_induction word w s with
  | case1 s => exact .ok s
  | case2 => exact .error rfl
  | case3 d w s ih => exact ih
  | case4 => exact .error rfl

theorem keyless_codeUnit (s : List Char) : Keyless (codeUnit s) := by
  unfold codeUnit
  split
  · exact .error rfl
  split
  · split
    · exact .ok _
    · exact .error rfl
  · exact .error rfl

theorem keyless_join (c : Char) (s : List Char) : Keyless (join c s) := by
  unfold join
  split
  · exact .error rfl
  split
  · exact .ok _
  · exact .error rfl

theorem keyless_unicodeEscape (s : List Char) : Keyless (unicodeEscape s) := by
  refine (keyless_codeUnit s).bind fun (u, s) => ?_
  dsimp only
  split
  · exact .error rfl
  split
  · refine (keyless_join _ s).bind fun s => (keyless_join _ s).bind fun s => ?_
    refine (keyless_codeUnit s).bind fun (v, s) => ?_
    dsimp only
    split
    · exact .ok _
    · exact .error rfl
  · exact .ok _

theorem keyless_escape (s : List Char) : Keyless (escape s) := by
  unfold escape
  split
  · exact .error rfl
  · exact keyless_unicodeEscape _
  · split
    · exact .ok _
    · exact .error rfl

theorem keyless_stringBody (n : Nat) (s : List Char) : Keyless (stringBody n s) := by
  induction n generalizing s with
  | zero => exact .error rfl
  | succ n ih =>
      cases s with
      | nil => exact .error rfl
      | cons c s =>
          rw [stringBody]
          split
          · exact .ok _
          split
          · refine (keyless_escape s).bind ?_
            rintro ⟨d, s⟩
            exact (ih s).bind fun _ => .ok _
          split
          · exact .error rfl
          · exact (ih s).bind fun _ => .ok _

theorem keyless_quoted (size : Nat) (s : List Char) : Keyless (quoted size s) :=
  (keyless_stringBody size s).bind fun _ => .ok _

theorem keyless_wholePart (s : List Char) : Keyless (wholePart s) := by
  unfold wholePart
  split
  · exact .error rfl
  split
  · split
    · split
      · exact .error rfl
      · exact .ok _
    · exact .ok _
  split
  · exact .ok _
  · exact .error rfl

theorem keyless_fractionPart (s : List Char) : Keyless (fractionPart s) := by
  unfold fractionPart
  split
  · split
    · exact keyless_stopBefore rfl rfl _
    · exact .ok _
  · exact .ok _

theorem keyless_exponentDigits (negative isZero : Bool) (s : List Char) :
    Keyless (exponentDigits negative isZero s) := by
  unfold exponentDigits
  split
  · exact keyless_stopBefore rfl rfl s
  · split
    · exact .error rfl
    · exact .ok _

theorem keyless_exponentPart (isZero : Bool) (s : List Char) : Keyless (exponentPart isZero s) := by
  unfold exponentPart
  split
  · exact .ok _
  split
  · exact keyless_exponentDigits _ _ _
  · exact .ok _

theorem keyless_number (negative : Bool) (s : List Char) : Keyless (number negative s) := by
  refine (keyless_wholePart s).bind fun (whole, s) => ?_
  refine (keyless_fractionPart s).bind fun (fraction, s) => ?_
  refine (keyless_exponentPart _ s).bind fun (exponent, s) => ?_
  dsimp only
  split
  · exact .error rfl
  · exact .ok _

theorem keyless_scalar (size : Nat) (s : List Char) : Keyless (scalar size s) := by
  unfold scalar
  split
  · exact (keyless_word _ _).bind fun _ => .ok _
  · exact (keyless_word _ _).bind fun _ => .ok _
  · exact (keyless_word _ _).bind fun _ => .ok _
  · exact (keyless_quoted _ _).bind fun _ => .ok _
  · exact (keyless_number _ _).bind fun _ => .ok _
  · split
    · exact (keyless_number _ _).bind fun _ => .ok _
    · exact .error rfl
  · exact .error rfl

theorem keyless_colon (s : List Char) : Keyless (colon s) := by
  unfold colon
  split
  · exact .ok _
  · exact keyless_stopBefore rfl rfl _

end Sidebar.Json
