import Mathlib.Data.List.Forall2
import Sidebar.Proofs.Text.Spelling

/-!
# Text — code units and their digits

A code unit is written in four hexadecimal digits, of either letter case each, and the digits tell
the unit.  The characters up to U+FFFF are the units that are no surrogates.  The characters beyond
are the pairs of a high and a low surrogate, and each has one pair.

* `fourDigits_iff`: the digits of a code unit.
* `pair_iff`: the pair of a character.
-/

namespace Sidebar.Text

/-! ### Digits -/

/-- A hexadecimal digit, in either letter case. -/
def DigitOf (n : Nat) (c : Char) : Prop := c = hexDigit n ∨ c = (hexDigit n).toUpper

instance (n : Nat) : DecidablePred (DigitOf n) := fun c =>
  inferInstanceAs (Decidable (c = hexDigit n ∨ c = (hexDigit n).toUpper))

/-- The four digits of a code unit. -/
structure Digits (u : Nat) (ds : List Char) : Prop where
  lt : u < 0x10000
  digits : List.Forall₂ DigitOf [u / 0x1000, u / 0x100 % 0x10, u / 0x10 % 0x10, u % 0x10] ds

instance (u : Nat) (ds : List Char) : Decidable (Digits u ds) :=
  decidable_of_iff (u < 0x10000 ∧
      List.Forall₂ DigitOf [u / 0x1000, u / 0x100 % 0x10, u / 0x10 % 0x10, u % 0x10] ds)
    ⟨fun ⟨lt, digits⟩ => ⟨lt, digits⟩, fun ⟨lt, digits⟩ => ⟨lt, digits⟩⟩

theorem toNat_lt_of_hexValue? {c : Char} {n : Nat} (h : hexValue? c = some n) : c.toNat < 128 := by
  have below (d : Char) (hd : d.toNat < 128) (hc : c ≤ d) : c.toNat < 128 :=
    Nat.lt_of_le_of_lt hc hd
  unfold hexValue? at h
  split at h
  · exact below '9' (by decide) ‹_ ∧ _›.2
  split at h
  · exact below 'f' (by decide) ‹_ ∧ _›.2
  split at h
  · exact below 'F' (by decide) ‹_ ∧ _›.2
  · exact nomatch h

/-- The digits of a number below sixteen are the characters that have it for a value. -/
theorem hexValue?_eq_some_iff {c : Char} {n : Nat} :
    hexValue? c = some n ↔ n < 16 ∧ DigitOf n c := by
  constructor
  · intro h
    have all : ∀ m < 128, ∀ n ∈ hexValue? (Char.ofNat m), n < 16 ∧ DigitOf n (Char.ofNat m) := by
      decide +kernel
    have own := all c.toNat (toNat_lt_of_hexValue? h)
    rw [Char.ofNat_toNat] at own
    exact own n h
  · rintro ⟨lt, digit⟩
    have all : ∀ n < 16, hexValue? (hexDigit n) = some n ∧
        hexValue? (hexDigit n).toUpper = some n := by
      decide +kernel
    rcases digit with rfl | rfl
    · exact (all n lt).1
    · exact (all n lt).2

theorem hexNumber?_four {a b c d : Char} {u : Nat} : hexNumber? [a, b, c, d] = some u ↔
    ∃ k l m n, hexValue? a = some k ∧ hexValue? b = some l ∧ hexValue? c = some m ∧
      hexValue? d = some n ∧ ((k * 16 + l) * 16 + m) * 16 + n = u := by
  simp [hexNumber?, List.foldlM_cons, Option.bind_eq_some_iff, Option.map_eq_some_iff]

/-- Four characters spell a code unit if they are its digits. -/
theorem fourDigits_iff {ds : List Char} {u : Nat} : FourDigits ds u ↔ Digits u ds := by
  constructor
  · rintro ⟨len, spelled⟩
    obtain ⟨a, b, c, d, rfl⟩ := List.length_eq_four.mp len
    obtain ⟨k, l, m, n, ha, hb, hc, hd, rfl⟩ := hexNumber?_four.mp spelled
    rw [hexValue?_eq_some_iff] at ha hb hc hd
    refine ⟨by omega, ?_⟩
    -- each digit comes out of the number again
    have parts : [(((k * 16 + l) * 16 + m) * 16 + n) / 0x1000,
        (((k * 16 + l) * 16 + m) * 16 + n) / 0x100 % 0x10,
        (((k * 16 + l) * 16 + m) * 16 + n) / 0x10 % 0x10,
        (((k * 16 + l) * 16 + m) * 16 + n) % 0x10] = [k, l, m, n] := by
      simp only [List.cons.injEq, and_true]
      omega
    rw [parts]
    exact .cons ha.2 (.cons hb.2 (.cons hc.2 (.cons hd.2 .nil)))
  · rintro ⟨lt, digits⟩
    rcases digits with _ | ⟨ha, _ | ⟨hb, _ | ⟨hc, _ | ⟨hd, _ | _⟩⟩⟩⟩
    refine ⟨rfl, hexNumber?_four.mpr ⟨_, _, _, _, hexValue?_eq_some_iff.mpr ⟨?_, ha⟩,
      hexValue?_eq_some_iff.mpr ⟨?_, hb⟩, hexValue?_eq_some_iff.mpr ⟨?_, hc⟩,
      hexValue?_eq_some_iff.mpr ⟨?_, hd⟩, ?_⟩⟩ <;> omega

theorem Digits.length_eq {u : Nat} {ds : List Char} (h : Digits u ds) : ds.length = 4 :=
  h.digits.length_eq.symm

/-- The digits of one unit are not those of another. -/
theorem Digits.inj {u v : Nat} {ds es : List Char} {r r' : List Char} (hu : Digits u ds)
    (hv : Digits v es) (h : ds ++ r = es ++ r') : u = v ∧ r = r' := by
  obtain ⟨rfl, rest⟩ := List.append_inj h (hu.length_eq.trans hv.length_eq.symm)
  have same := (fourDigits_iff.mpr hu).2.symm.trans (fourDigits_iff.mpr hv).2
  exact ⟨Option.some.inj same, rest⟩

/-! ### Surrogates -/

theorem isHigh_iff {u : Nat} : CodeUnit.isHigh u ↔ 0xD800 ≤ u ∧ u < 0xDC00 := by
  simp [CodeUnit.isHigh]

theorem isLow_iff {u : Nat} : CodeUnit.isLow u ↔ 0xDC00 ≤ u ∧ u < 0xE000 := by
  simp [CodeUnit.isLow]

theorem toNat_valid (c : Char) : c.toNat < 0xD800 ∨ 0xDFFF < c.toNat ∧ c.toNat < 0x110000 :=
  c.valid

/-- No character is a surrogate. -/
theorem not_isHigh_toNat (c : Char) : ¬ CodeUnit.isHigh c.toNat := by
  have := toNat_valid c
  rw [isHigh_iff]
  omega

theorem not_isLow_toNat (c : Char) : ¬ CodeUnit.isLow c.toNat := by
  have := toNat_valid c
  rw [isLow_iff]
  omega

theorem toNat_ofNat_valid {n : Nat} (h : n.isValidChar) : (Char.ofNat n).toNat = n := by
  rw [Char.ofNat, dif_pos h]
  rfl

/-- A unit that is no surrogate is a character. -/
theorem toNat_ofNat_unit {u : Nat} (lt : u < 0x10000) (hh : ¬ CodeUnit.isHigh u)
    (hl : ¬ CodeUnit.isLow u) : (Char.ofNat u).toNat = u := by
  rw [isHigh_iff] at hh
  rw [isLow_iff] at hl
  refine toNat_ofNat_valid ?_
  unfold Nat.isValidChar
  omega

theorem toNat_ofNat_pair {n : Nat} (least : 0x10000 ≤ n) (most : n < 0x110000) :
    (Char.ofNat n).toNat = n :=
  toNat_ofNat_valid (.inr ⟨Nat.lt_of_lt_of_le (by decide) least, most⟩)

/-- The pairs of surrogates are the characters beyond U+FFFF, one each. -/
theorem pair_iff {u v n : Nat} :
    CodeUnit.isHigh u ∧ CodeUnit.isLow v ∧ CodeUnit.ofPair u v = n ↔
      0x10000 ≤ n ∧ n < 0x110000 ∧ CodeUnit.high n = u ∧ CodeUnit.low n = v := by
  rw [isHigh_iff, isLow_iff]
  constructor
  · rintro ⟨hu, hv, rfl⟩
    unfold CodeUnit.ofPair CodeUnit.high CodeUnit.low
    omega
  · rintro ⟨least, most, rfl, rfl⟩
    refine ⟨?_, ?_, CodeUnit.ofPair_high_low least⟩
    · unfold CodeUnit.high
      omega
    · unfold CodeUnit.low
      omega

/-- The surrogates of a character beyond U+FFFF. -/
theorem pair_toNat {c : Char} (h : 0x10000 ≤ c.toNat) :
    CodeUnit.isHigh (CodeUnit.high c.toNat) ∧ CodeUnit.isLow (CodeUnit.low c.toNat) ∧
      CodeUnit.ofPair (CodeUnit.high c.toNat) (CodeUnit.low c.toNat) = c.toNat := by
  have most : c.toNat < 0x110000 := by
    have := toNat_valid c
    omega
  exact pair_iff.mpr ⟨h, most, rfl, rfl⟩

end Sidebar.Text
