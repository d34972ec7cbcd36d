import Sidebar.Proofs.Text.Step
import Sidebar.Proofs.Json.Grammar

/-!
# Json — blanks, words and strings are read as the grammar says

The reader of strings counts the characters it may still take; the length of the text is enough
of them.

* `space_skipSpace`, `Space.skipSpace_eq`: blanks are skipped up to what is none.
* `quoted_sound`, `quoted_complete`: what is read is a string of the grammar, and a string of the
  grammar is read.
-/

namespace Sidebar.Json

open Sidebar.Text

/-! ### Blanks -/

/-- The text does not begin with a blank. -/
def Settled (s : List Char) : Prop := ∀ c ∈ s.head?, ¬ isSpace c

theorem settled_cons {c : Char} {s : List Char} : Settled (c :: s) ↔ ¬ isSpace c := by
  simp [Settled]

/-- The characters a token may begin with, numbers apart. -/
theorem settled_mark {c : Char} {s : List Char}
    (h : c ∈ ['"', ':', ',', '[', ']', '{', '}', '-', 'n', 't', 'f']) : Settled (c :: s) :=
  settled_cons.mpr (not_of_all (by decide) h)

theorem Space.refl (s : List Char) : Space s s := ⟨[], by simp, rfl⟩

theorem Space.trans {s t r : List Char} (h : Space s t) (h' : Space t r) : Space s r := by
  obtain ⟨w, hw, rfl⟩ := h
  obtain ⟨w', hw', rfl⟩ := h'
  exact ⟨w ++ w', List.forall_mem_append.mpr ⟨hw, hw'⟩, (List.append_assoc ..).symm⟩

theorem Space.length_le {s r : List Char} (h : Space s r) : r.length ≤ s.length := by
  obtain ⟨w, -, rfl⟩ := h
  simp

theorem space_skipSpace (s : List Char) : Space s (skipSpace s) :=
  ⟨s.takeWhile isSpace, List.all_eq_true.mp List.all_takeWhile,
    List.takeWhile_append_dropWhile.symm⟩

theorem Space.skipSpace_eq {s r : List Char} (h : Space s r) (hr : Settled r) :
    skipSpace s = r := by
  obtain ⟨w, hw, rfl⟩ := h
  exact dropWhile_append_eq hw hr

theorem space_of_skipSpace {s r : List Char} (h : skipSpace s = r) : Space s r :=
  h ▸ space_skipSpace s

/-! ### Words -/

theorem stopBefore_ne_ok {α : Type} {c c' : Cause} {s : List Char} {a : α} :
    (stopBefore c c' s : Except Fault α) ≠ .ok a := by
  cases s <;> simp [stopBefore, stopAt, stopBehind]

theorem word_eq_ok {w s r : List Char} : word w s = .ok r ↔ s = w ++ r := by
  induction w generalizing s with
  | nil => simp [word]
  | cons d w ih =>
      cases s with
      | nil => simp [word, stopAt]
      | cons c s =>
          by_cases h : c = d
          · simp [word, h, ih]
          · simp [word, h, stopBehind]

/-! ### Strings -/

/-- A hexadecimal digit takes one byte. -/
theorem utf8Size_of_hexValue?_eq_some {c : Char} {d : Nat} (h : hexValue? c = some d) :
    c.utf8Size = 1 := by
  have hc : c.val ≤ 'f'.val := by
    unfold hexValue? at h
    split at h
    · rename_i hc; exact UInt32.le_trans hc.2 (by decide)
    split at h
    · rename_i hc; exact hc.2
    split at h
    · rename_i hc; exact UInt32.le_trans hc.2 (by decide)
    · exact nomatch h
  exact Char.utf8Size_eq_one_iff.mpr (UInt32.le_trans hc (by decide))

theorem codeUnit_eq_ok {u : Nat} {s r : List Char} :
    codeUnit s = .ok (u, r) ↔ ∃ ds, FourDigits ds u ∧ s = ds ++ r := by
  constructor
  · intro h
    unfold codeUnit at h
    split at h
    · exact nomatch h
    split at h
    · split at h
      · rename_i ha hb hc hd
        obtain ⟨rfl, rfl⟩ := Prod.mk.inj (Except.ok.inj h)
        exact ⟨[_, _, _, _], ⟨rfl, by simp [hexNumber?, ha, hb, hc, hd]⟩, rfl⟩
      · exact nomatch h
    · exact nomatch h
  · rintro ⟨ds, ⟨hl, hd⟩, rfl⟩
    match ds, hl with
    | [a, b, c, d], _ =>
      simp only [hexNumber?, List.foldlM_cons, List.foldlM_nil, Option.bind_eq_bind,
        Option.bind_eq_some_iff, Option.map_eq_some_iff, Option.pure_def, Option.some.injEq] at hd
      obtain ⟨_, ⟨a', ha, rfl⟩, _, ⟨b', hb, rfl⟩, _, ⟨c', hc, rfl⟩, _, ⟨d', hd, rfl⟩, rfl⟩ := hd
      have long : ¬ bytes ([a, b, c, d] ++ r |>.take 4) < 4 := by
        simp [bytes, utf8Size_of_hexValue?_eq_some ha, utf8Size_of_hexValue?_eq_some hb,
          utf8Size_of_hexValue?_eq_some hc, utf8Size_of_hexValue?_eq_some hd]
      unfold codeUnit
      rw [if_neg long]
      simp [ha, hb, hc, hd]

theorem join_eq_ok {c : Char} {s r : List Char} : join c s = .ok r ↔ s = c :: r := by
  cases s with
  | nil => simp [join, stopAt]
  | cons d s => by_cases h : d = c <;> simp [join, h, stopBehind]

theorem shortEscape?_eq_some {e c : Char} : shortEscape? e = some c ↔ (e, c) ∈ shortEscapes := by
  constructor
  · intro h
    unfold shortEscape? at h
    split at h <;> cases h <;> decide
  · intro h
    have all : ∀ p ∈ shortEscapes, shortEscape? p.1 = some p.2 := by decide
    exact all _ h

/-- What follows `\u` is a code unit, or a pair of them. -/
theorem unicodeEscape_eq_ok {c : Char} {s r : List Char} :
    unicodeEscape s = .ok (c, r) ↔
      ∃ t, s = t ++ r ∧ Spelling Plain shortEscapes ('\\' :: 'u' :: t) c := by
  unfold unicodeEscape
  rw [bind_eq_ok]
  constructor
  · rintro ⟨⟨u, s₁⟩, hu, h⟩
    obtain ⟨ds, hd, rfl⟩ := codeUnit_eq_ok.mp hu
    dsimp only at h
    split at h
    · exact nomatch h
    rename_i hl
    split at h
    · rename_i hh
      obtain ⟨s₂, h₂, k₂⟩ := bind_eq_ok.mp h
      obtain ⟨s₃, h₃, k₃⟩ := bind_eq_ok.mp k₂
      obtain ⟨⟨v, s₄⟩, h₄, k₄⟩ := bind_eq_ok.mp k₃
      obtain rfl := join_eq_ok.mp h₂
      obtain rfl := join_eq_ok.mp h₃
      obtain ⟨es, he, rfl⟩ := codeUnit_eq_ok.mp h₄
      dsimp only at k₄
      split at k₄
      · rename_i hl'
        obtain ⟨rfl, rfl⟩ := Prod.mk.inj (Except.ok.inj k₄)
        exact ⟨ds ++ '\\' :: 'u' :: es, by simp, .pair hd hh he hl'⟩
      · exact nomatch k₄
    · rename_i hh
      obtain ⟨rfl, rfl⟩ := Prod.mk.inj (Except.ok.inj h)
      exact ⟨ds, rfl, .unit hd hh hl⟩
  · rintro ⟨t, rfl, h⟩
    cases h with
    | short h => exact absurd h (by simp [shortEscapes])
    | unit hd hh hl =>
        refine ⟨_, codeUnit_eq_ok.mpr ⟨_, hd, rfl⟩, ?_⟩
        simp [hh, hl]
    | @pair ds es u v hd hh he hl =>
        refine ⟨_, codeUnit_eq_ok.mpr ⟨ds, hd, by simp; rfl⟩, ?_⟩
        have h₄ : codeUnit (es ++ r) = .ok (v, r) := codeUnit_eq_ok.mpr ⟨es, he, rfl⟩
        have hl' : ¬ CodeUnit.isLow u := by
          simp only [CodeUnit.isHigh, CodeUnit.isLow, Bool.and_eq_true, decide_eq_true_eq] at hh ⊢
          omega
        simp [hl', hh, join, h₄, hl]

theorem escape_eq_ok {c : Char} {s r : List Char} :
    escape s = .ok (c, r) ↔
      ∃ t, t ≠ [] ∧ s = t ++ r ∧ Spelling Plain shortEscapes ('\\' :: t) c := by
  constructor
  · intro h
    unfold escape at h
    split at h
    · exact nomatch h
    · obtain ⟨t, rfl, ht⟩ := unicodeEscape_eq_ok.mp h
      exact ⟨'u' :: t, by simp, rfl, ht⟩
    · rename_i e s _
      split at h
      · rename_i d hd
        obtain ⟨rfl, rfl⟩ := Prod.mk.inj (Except.ok.inj h)
        exact ⟨[e], by simp, rfl, .short (shortEscape?_eq_some.mp hd)⟩
      · exact nomatch h
  · rintro ⟨t, ht, rfl, h⟩
    cases h with
    | plain => exact absurd rfl ht
    | @short e _ h =>
        have he : e ≠ 'u' := by rintro rfl; simp [shortEscapes] at h
        rw [List.singleton_append, escape, shortEscape?_eq_some.mpr h]
        exact he
    | @unit ds u hd hh hl =>
        exact unicodeEscape_eq_ok.mpr ⟨ds, rfl, .unit hd hh hl⟩
    | @pair ds es u v hd hh he hl =>
        exact unicodeEscape_eq_ok.mpr ⟨_, rfl, .pair hd hh he hl⟩

theorem stringBody_sound {n : Nat} {s r cs : List Char} (h : stringBody n s = .ok (cs, r)) :
    ∃ t, s = t ++ '"' :: r ∧ Spells Plain shortEscapes t cs := by
  induction n generalizing s cs with
  | zero => exact nomatch h
  | succ n ih =>
      cases s with
      | nil => exact nomatch h
      | cons c s =>
          rw [stringBody] at h
          split at h
          · rename_i hc
            obtain ⟨rfl, rfl⟩ := Prod.mk.inj (Except.ok.inj h)
            exact ⟨[], by rw [hc]; rfl, .nil⟩
          split at h
          · rename_i hc
            obtain ⟨⟨d, s₁⟩, h₁, k₁⟩ := bind_eq_ok.mp h
            obtain ⟨⟨ds, s₂⟩, h₂, k₂⟩ := bind_eq_ok.mp k₁
            obtain ⟨rfl, rfl⟩ := Prod.mk.inj (Except.ok.inj k₂)
            obtain ⟨u, -, rfl, hu⟩ := escape_eq_ok.mp h₁
            obtain ⟨t, rfl, ht⟩ := ih h₂
            exact ⟨'\\' :: u ++ t, by simp [hc], .cons hu ht⟩
          split at h
          · exact nomatch h
          · obtain ⟨⟨ds, s₁⟩, h₁, k₁⟩ := bind_eq_ok.mp h
            obtain ⟨rfl, rfl⟩ := Prod.mk.inj (Except.ok.inj k₁)
            obtain ⟨t, rfl, ht⟩ := ih h₁
            exact ⟨c :: t, rfl, .cons (.plain ⟨‹_›, ‹_›, ‹_›⟩) ht⟩

theorem stringBody_complete {t cs r : List Char} (h : Spells Plain shortEscapes t cs) :
    ∀ {n : Nat}, t.length < n → stringBody n (t ++ '"' :: r) = .ok (cs, r) := by
  induction h with
  | nil =>
      intro n hn
      obtain ⟨n, rfl⟩ := Nat.exists_eq_succ_of_ne_zero (Nat.ne_of_gt hn)
      simp [stringBody]
  | @cons t u cs c h _ ih =>
      intro n hn
      obtain ⟨n, rfl⟩ := Nat.exists_eq_succ_of_ne_zero (Nat.ne_of_gt (Nat.zero_lt_of_lt hn))
      rcases h.head with ⟨rfl, hc⟩ | ⟨w, rfl, hw⟩
      · rw [List.append_assoc, List.singleton_append, stringBody, if_neg hc.1, if_neg hc.2.1,
          if_neg hc.2.2, ih (by simpa using hn)]
        rfl
      · have he : escape (w ++ (u ++ '"' :: r)) = .ok (c, u ++ '"' :: r) :=
          escape_eq_ok.mpr ⟨w, hw, rfl, h⟩
        simp only [List.cons_append, List.append_assoc, List.length_cons,
          List.length_append] at hn ⊢
        rw [stringBody, if_neg (by decide), if_pos rfl, he, ok_bind]
        dsimp only
        rw [ih (by omega)]
        rfl

theorem quoted_sound {size : Nat} {s r : List Char} {k : String}
    (h : quoted size s = .ok (k, r)) : Quoted ('"' :: s) k r := by
  obtain ⟨⟨cs, s₁⟩, h₁, k₁⟩ := bind_eq_ok.mp h
  obtain ⟨rfl, rfl⟩ := Prod.mk.inj (Except.ok.inj k₁)
  obtain ⟨t, rfl, ht⟩ := stringBody_sound h₁
  exact ⟨t, rfl, by simpa using ht⟩

theorem quoted_complete {size : Nat} {s r : List Char} {k : String} (h : Quoted ('"' :: s) k r)
    (hs : s.length ≤ size) : quoted size s = .ok (k, r) := by
  obtain ⟨t, e, ht⟩ := h
  obtain ⟨-, rfl⟩ := List.cons.inj e
  simp only [List.length_append, List.length_cons] at hs
  refine bind_eq_ok.mpr ⟨_, stringBody_complete ht (by omega), ?_⟩
  simp

theorem Quoted.eq_cons {s r : List Char} {k : String} (h : Quoted s k r) : ∃ t, s = '"' :: t := by
  obtain ⟨t, rfl, -⟩ := h
  exact ⟨_, rfl⟩

theorem Quoted.length_lt {s r : List Char} {k : String} (h : Quoted s k r) :
    r.length < s.length := by
  obtain ⟨t, rfl, -⟩ := h
  simp only [List.length_cons, List.length_append]
  omega

end Sidebar.Json
