import Sidebar.Proofs.Script.Token
import Sidebar.Proofs.Text.CodeUnit

/-!
# Script — the spellings of a string

A character of a string is spelled in one of up to three ways: by itself, by a letter behind a
backslash, or by the escape of its code unit or of its two surrogates.  Whichever is taken for each
character, in either quote, the string is read back, and reading stops behind the closing quote;
nothing else is read.  The escape of a surrogate that has no partner ends reading with a fault.

* `Spelled`: the spellings of a character.
* `spelled_iff`: they are those of the grammar.
* `exists_spelled`: every character has a spelling.
* `quoted_decodes`: strings are read back from their spellings, and from nothing else.
-/

namespace Sidebar.Script

open Sidebar.Text

/-! ### Spellings -/

/-- The ways to spell a character between two quotes: by itself, unless it ends the line or the
string, or begins an escape; by the letter it may have; or in digits, as one code unit up to U+FFFF
and as two beyond. -/
inductive Spelled (quote c : Char) : List Char → Prop where
  | raw (line : c ≠ '\n') (escape : c ≠ '\\') (closing : c ≠ quote) : Spelled quote c [c]
  | short {e : Char} (h : (e, c) ∈ shortEscapes) : Spelled quote c ['\\', e]
  | unit {ds : List Char} (lt : c.toNat < 0x10000) (hd : Digits c.toNat ds) :
      Spelled quote c ('\\' :: 'u' :: ds)
  | pair {ds es : List Char} (le : 0x10000 ≤ c.toNat) (hd : Digits (CodeUnit.high c.toNat) ds)
      (he : Digits (CodeUnit.low c.toNat) es) :
      Spelled quote c ('\\' :: 'u' :: (ds ++ '\\' :: 'u' :: es))

variable {quote c : Char} {t : List Char}

theorem Spelled.spelling (h : Spelled quote c t) : Spelling (Plain quote) shortEscapes t c := by
  cases h with
  | raw line escape closing => exact .plain ⟨closing, escape, line⟩
  | short h => exact .short h
  | unit lt hd =>
      have unit : Spelling (Plain quote) shortEscapes _ (Char.ofNat c.toNat) :=
        .unit (fourDigits_iff.mpr hd) (not_isHigh_toNat c) (not_isLow_toNat c)
      rwa [Char.ofNat_toNat] at unit
  | pair le hd he =>
      obtain ⟨hh, hl, joined⟩ := pair_toNat le
      have pair : Spelling (Plain quote) shortEscapes _ (Char.ofNat _) :=
        .pair (fourDigits_iff.mpr hd) hh (fourDigits_iff.mpr he) hl
      rwa [joined, Char.ofNat_toNat] at pair

theorem spelled_of_spelling (h : Spelling (Plain quote) shortEscapes t c) : Spelled quote c t := by
  cases h with
  | plain h => exact .raw h.2.2 h.2.1 h.1
  | short h => exact .short h
  | unit hd hh hl =>
      replace hd := fourDigits_iff.mp hd
      have code := toNat_ofNat_unit hd.lt hh hl
      exact .unit (code.symm ▸ hd.lt) (code.symm ▸ hd)
  | @pair ds es u v hd hh he hl =>
      obtain ⟨least, most, hu, hv⟩ := pair_iff.mp ⟨hh, hl, rfl⟩
      have code := toNat_ofNat_pair least most
      refine .pair (code.symm ▸ least) ?_ ?_
      · rw [code, hu]
        exact fourDigits_iff.mp hd
      · rw [code, hv]
        exact fourDigits_iff.mp he

/-- The spellings are those of the grammar. -/
theorem spelled_iff : Spelled quote c t ↔ Spelling (Plain quote) shortEscapes t c :=
  ⟨Spelled.spelling, spelled_of_spelling⟩

theorem exists_digits {u : Nat} (lt : u < 0x10000) : ∃ ds, Digits u ds :=
  ⟨_, lt, .cons (.inl rfl) (.cons (.inl rfl) (.cons (.inl rfl) (.cons (.inl rfl) .nil)))⟩

/-- Every character has a spelling, in either quote. -/
theorem exists_spelled (quote c : Char) : ∃ t, Spelled quote c t := by
  by_cases lt : c.toNat < 0x10000
  · obtain ⟨ds, hd⟩ := exists_digits lt
    exact ⟨_, .unit lt hd⟩
  · have le : 0x10000 ≤ c.toNat := Nat.le_of_not_lt lt
    obtain ⟨hh, hl, -⟩ := pair_toNat le
    rw [isHigh_iff] at hh
    rw [isLow_iff] at hl
    obtain ⟨ds, hd⟩ := exists_digits (u := CodeUnit.high c.toNat) (by omega)
    obtain ⟨es, he⟩ := exists_digits (u := CodeUnit.low c.toNat) (by omega)
    exact ⟨_, .pair le hd he⟩

theorem spells_iff {cs : List Char} : Spells (Plain quote) shortEscapes t cs ↔
    ∃ ts, List.Forall₂ (Spelled quote) cs ts ∧ t = ts.flatten := by
  constructor
  · intro h
    induction h with
    | nil => exact ⟨[], .nil, rfl⟩
    | cons h _ ih =>
        obtain ⟨ts, hts, rfl⟩ := ih
        exact ⟨_ :: ts, .cons (spelled_iff.mpr h) hts, rfl⟩
  · rintro ⟨ts, h, rfl⟩
    induction h with
    | nil => exact .nil
    | cons h _ ih => exact .cons (spelled_iff.mp h) ih

/-! ### Surrogates without a partner -/

/-- The surrogate has no partner: it is a low one, or the escape of a low one does not follow. -/
def Unpaired (u : Nat) (rest : List Char) : Prop :=
  CodeUnit.isLow u ∨
    CodeUnit.isHigh u ∧ ∀ v es r, rest = '\\' :: 'u' :: (es ++ r) → Digits v es → ¬ CodeUnit.isLow v

/-- The causes to give up on the digits behind `\u`. -/
def unitCauses : List Cause := [.invalidUnicodeEscape, .unpairedSurrogate]

variable {s : List Char} {f : Fault}

theorem codeUnit_cause {n u : Nat} (h : codeUnit n u s = .error f) : f.cause ∈ unitCauses := by
  fun_induction codeUnit n u s with
  | case1 => exact nomatch h
  | case2 => exact Except.error.inj h ▸ .head _
  | case3 n u c s d _ ih => exact ih h
  | case4 => exact Except.error.inj h ▸ .head _

theorem must_cause {d : Char} (h : must d .unpairedSurrogate s = .error f) :
    f.cause ∈ unitCauses := by
  unfold must at h
  split at h
  · exact Except.error.inj h ▸ .tail _ (.head _)
  split at h
  · exact nomatch h
  · exact Except.error.inj h ▸ .tail _ (.head _)

theorem unicodeEscape_cause (h : unicodeEscape s = .error f) : f.cause ∈ unitCauses := by
  rcases bind_eq_error.mp h with h | ⟨⟨u, s₁⟩, -, h⟩
  · exact codeUnit_cause h
  dsimp only at h
  split at h
  · rcases bind_eq_error.mp h with h | ⟨s₂, -, h⟩
    · exact must_cause h
    rcases bind_eq_error.mp h with h | ⟨s₃, -, h⟩
    · exact must_cause h
    rcases bind_eq_error.mp h with h | ⟨⟨v, s₄⟩, -, h⟩
    · exact codeUnit_cause h
    dsimp only at h
    split at h
    · exact nomatch h
    · exact Except.error.inj h ▸ .tail _ (.head _)
  split at h
  · exact Except.error.inj h ▸ .head _
  · exact nomatch h

/-- The escape of a surrogate without a partner is not read. -/
theorem unicodeEscape_unpaired {u : Nat} {ds rest : List Char} (hd : Digits u ds)
    (h : Unpaired u rest) :
    ∃ f, unicodeEscape (ds ++ rest) = .error f ∧ f.cause ∈ unitCauses := by
  cases e : unicodeEscape (ds ++ rest) with
  | error f => exact ⟨f, rfl, unicodeEscape_cause e⟩
  | ok p =>
      obtain ⟨c, r⟩ := p
      have letters : ∀ d, ('u', d) ∉ shortEscapes := by simp [shortEscapes]
      obtain ⟨t, text, spelling⟩ := (unicodeEscape_eq_ok (Plain '"') letters).mp e
      cases spelling with
      | short h => exact absurd h (letters _)
      | unit hd' hh hl =>
          obtain ⟨rfl, -⟩ := hd.inj (fourDigits_iff.mp hd') text
          exact absurd h (not_or.mpr ⟨hl, fun high => hh high.1⟩)
      | @pair ds' es u' v hd' hh he hl =>
          rw [List.append_assoc] at text
          obtain ⟨rfl, rfl⟩ := hd.inj (fourDigits_iff.mp hd') text
          rcases h with low | ⟨-, alone⟩
          · rw [isHigh_iff] at hh
            rw [isLow_iff] at low
            omega
          · exact absurd hl (alone v es r rfl (fourDigits_iff.mp he))

/-! ### Strings -/

variable {size : Nat} {text r : List Char}

/-- Behind what is spelled, the escape of a surrogate without a partner ends reading. -/
theorem quoted_unpaired {cs : List Char} {u : Nat} {ds rest : List Char} (hq : isQuote quote)
    (hs : Spells (Plain quote) shortEscapes s cs) (hd : Digits u ds) (h : Unpaired u rest)
    (fits : (s ++ '\\' :: 'u' :: (ds ++ rest)).length ≤ size) :
    ∃ f, quoted size quote (s ++ '\\' :: 'u' :: (ds ++ rest)) = .error f ∧
      f.cause ∈ unitCauses := by
  obtain ⟨f, stops, cause⟩ := unicodeEscape_unpaired hd h
  have most := hs.length_le
  rw [List.length_append, List.length_cons] at fits
  obtain ⟨n, rfl⟩ := Nat.exists_eq_add_of_lt (show cs.length < size by omega)
  have step : escape ('u' :: (ds ++ rest)) = .error f := stops
  refine ⟨f, ?_, cause⟩
  rw [quoted, Nat.add_assoc, stringBody_append (isQuote_ne hq) hs, stringBody,
    if_neg (isQuote_ne hq).symm, if_pos rfl, step]
  rfl

/-- A string is read exactly from its spellings, whichever is taken for each of its characters, and
reading stops behind the closing quote.  The escape of a surrogate that has no partner is not read,
whatever is spelled in front of it and whatever follows. -/
structure Decodes (size : Nat) (quote : Char) (text : List Char) : Prop where
  reads : ∀ k r, quoted size quote text = .ok (k, r) ↔
    ∃ ts, List.Forall₂ (Spelled quote) k.toList ts ∧ text = ts.flatten ++ quote :: r
  rejects : ∀ cs ts u ds rest, List.Forall₂ (Spelled quote) cs ts → Digits u ds → Unpaired u rest →
    text = ts.flatten ++ '\\' :: 'u' :: (ds ++ rest) →
      ∃ f, quoted size quote text = .error f ∧ f.cause ∈ unitCauses

theorem quoted_eq_ok {k : String} (hq : isQuote quote) (fits : text.length ≤ size) :
    quoted size quote text = .ok (k, r) ↔
      ∃ ts, List.Forall₂ (Spelled quote) k.toList ts ∧ text = ts.flatten ++ quote :: r := by
  have both : quoted size quote text = .ok (k, r) ↔ Quoted (quote :: text) k r :=
    ⟨quoted_sound hq, fun h => quoted_complete h fits⟩
  rw [both]
  constructor
  · rintro ⟨q, t, -, e, spells⟩
    obtain ⟨rfl, rfl⟩ := List.cons.inj e
    obtain ⟨ts, hts, rfl⟩ := spells_iff.mp spells
    exact ⟨ts, hts, rfl⟩
  · rintro ⟨ts, hts, rfl⟩
    exact ⟨quote, _, hq, rfl, spells_iff.mpr ⟨ts, hts, rfl⟩⟩

/-- Behind either quote, strings are decoded. -/
theorem quoted_decodes (hq : isQuote quote) (fits : text.length ≤ size) :
    Decodes size quote text where
  reads _ _ := quoted_eq_ok hq fits
  rejects cs ts u ds rest hts hd h e := by
    subst e
    exact quoted_unpaired hq (spells_iff.mpr ⟨ts, hts, rfl⟩) hd h fits

/-- A quote, an accented letter, a character beyond U+FFFF and a plain one, each spelled in its own
way; and the surrogates of that character in the wrong order. -/
theorem quoted_decodes_mixed :
    isQuote '\'' ∧ isQuote '"' ∧
      quoted 40 '\'' "\\'\\u00E9\\ud83D\\uDe00x' y".toList = .ok ("'é😀x", " y".toList) ∧
      ∃ f, quoted 40 '"' "x\\ude00\\ud83d\"".toList = .error f ∧ f.cause ∈ unitCauses := by
  refine ⟨by decide, by decide, ?_, ?_⟩
  · have accent : Digits 'é'.toNat ['0', '0', 'E', '9'] := by decide
    have high : Digits (CodeUnit.high '😀'.toNat) ['d', '8', '3', 'D'] := by decide
    have low : Digits (CodeUnit.low '😀'.toNat) ['D', 'e', '0', '0'] := by decide
    refine ((quoted_decodes (by decide) (by decide)).reads _ _).mpr ⟨_, .cons (.short (e := '\'') ?_)
      (.cons (.unit ?_ accent) (.cons (.pair ?_ high low) (.cons (.raw ?_ ?_ ?_) .nil))), rfl⟩ <;>
      decide
  · have low : Digits 0xDE00 ['d', 'e', '0', '0'] := by decide
    exact (quoted_decodes (by decide) (by decide)).rejects ['x'] [['x']] _ _ _
      (.cons (.raw (by decide) (by decide) (by decide)) .nil) low (.inl (by decide)) rfl

end Sidebar.Script
