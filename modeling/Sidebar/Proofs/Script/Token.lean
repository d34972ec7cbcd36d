import Sidebar.Proofs.Text.Class
import Sidebar.Proofs.Text.Step
import Sidebar.Proofs.Script.Gap

/-!
# Script — names, strings and keys are read as the grammar says

The reader of names takes the longest one, as the grammar does.  The reader of strings counts the
characters it may still take; the length of the text is enough of them.

* `key_sound`, `quoted_sound`: what is read is a phrase of the grammar.
* `key_complete`, `quoted_complete`: a phrase of the grammar is read.
-/

namespace Sidebar.Script

open Sidebar.Text

/-! ### Names -/

theorem isNamePart_of_isNameStart {c : Char} (h : isNameStart c) : isNamePart c := by
  simp only [isNameStart, isNamePart, Bool.or_eq_true] at h ⊢
  exact h.imp_left (Or.imp_left isLetterOrNumber_of_isLetter)

theorem name_eq {s w r : List Char} (h : Name s w r) : name s = (w, r) := by
  rw [h.text, name, takeWhile_append_eq h.parts h.ends, dropWhile_append_eq h.parts h.ends]

theorem name_sound {c : Char} {s : List Char} (h : isNameStart c) :
    Name (c :: s) (name (c :: s)).1 (name (c :: s)).2 where
  text := (name_append (c :: s)).symm
  first := ⟨c, by simp [name, isNamePart_of_isNameStart h], h⟩
  parts := List.all_eq_true.mp List.all_takeWhile
  ends := fun _ => not_of_mem_head?_dropWhile

theorem not_isBlank_of_isNameStart {c : Char} (h : isNameStart c) : ¬ isBlank c := by
  intro hb
  simp only [isNameStart, isLetter_eq_false_of_isBlank hb, Bool.false_or, Bool.or_eq_true,
    beq_iff_eq] at h
  rcases h with rfl | rfl <;> exact absurd hb (by decide)

theorem Name.eq_cons {s w r : List Char} (h : Name s w r) :
    ∃ c t, s = c :: t ∧ isNameStart c := by
  obtain ⟨c, hc, hs⟩ := h.first
  cases w with
  | nil => simp at hc
  | cons d w =>
      obtain rfl : d = c := by simpa using hc
      exact ⟨d, w ++ r, h.text, hs⟩

theorem settled_nameStart {c : Char} {s : List Char} (h : isNameStart c) : Settled (c :: s) := by
  refine settled_of_not_isBlank ?_ (not_isBlank_of_isNameStart h)
  rintro rfl
  exact absurd h (by decide)

theorem Name.settled {s w r : List Char} (h : Name s w r) : Settled s := by
  obtain ⟨c, t, rfl, hs⟩ := h.eq_cons
  exact settled_nameStart hs

/-! ### Strings -/

theorem codeUnit_eq_ok {n u v : Nat} {s r : List Char} :
    codeUnit n u s = .ok (v, r) ↔ ∃ ds, ds.length = n ∧ s = ds ++ r ∧
      ds.foldlM (fun n c => (hexValue? c).map (n * 16 + ·)) u = some v := by
  induction n generalizing u s with
  | zero =>
      constructor
      · rintro ⟨⟩; exact ⟨[], rfl, rfl, rfl⟩
      · rintro ⟨ds, hd, rfl, h⟩
        obtain rfl := List.length_eq_zero_iff.mp hd
        obtain rfl := Option.some.inj h
        rfl
  | succ n ih =>
      constructor
      · intro h
        cases s with
        | nil => exact nomatch h
        | cons c s =>
            rw [codeUnit] at h
            split at h
            · rename_i d hc
              obtain ⟨ds, hd, rfl, hv⟩ := ih.mp h
              exact ⟨c :: ds, by simp [hd], rfl, by simpa [List.foldlM_cons, hc] using hv⟩
            · exact nomatch h
      · rintro ⟨ds, hd, rfl, h⟩
        obtain ⟨c, ds, rfl⟩ := List.exists_cons_of_length_eq_add_one hd
        rw [List.foldlM_cons, Option.bind_eq_bind, Option.bind_eq_some_iff] at h
        obtain ⟨m, hm, hv⟩ := h
        obtain ⟨d, hc, rfl⟩ := Option.map_eq_some_iff.mp hm
        rw [List.cons_append, codeUnit, hc]
        exact ih.mpr ⟨ds, by simpa using hd, rfl, hv⟩

theorem codeUnit_four {u : Nat} {s r : List Char} :
    codeUnit 4 0 s = .ok (u, r) ↔ ∃ ds, FourDigits ds u ∧ s = ds ++ r := by
  rw [codeUnit_eq_ok]
  constructor
  · rintro ⟨ds, hd, rfl, h⟩; exact ⟨ds, ⟨hd, h⟩, rfl⟩
  · rintro ⟨ds, ⟨hd, h⟩, rfl⟩; exact ⟨ds, hd, rfl, h⟩

theorem must_eq_ok {c : Char} {cause : Cause} {s r : List Char} :
    must c cause s = .ok r ↔ s = c :: r := by
  cases s with
  | nil => simp [must]
  | cons d s => by_cases h : d = c <;> simp [must, h]

theorem shortEscape?_eq_some {e c : Char} : shortEscape? e = some c ↔ (e, c) ∈ shortEscapes := by
  constructor
  · intro h
    unfold shortEscape? at h
    split at h <;> cases h <;> decide
  · intro h
    have all : ∀ p ∈ shortEscapes, shortEscape? p.1 = some p.2 := by decide
    exact all _ h

/-- What follows `\u` is a code unit, or a pair of them. -/
theorem unicodeEscape_eq_ok (plain : Char → Prop) {short : List (Char × Char)} {c : Char}
    {s r : List Char} (hs : ∀ d, ('u', d) ∉ short) :
    unicodeEscape s = .ok (c, r) ↔ ∃ t, s = t ++ r ∧ Spelling plain short ('\\' :: 'u' :: t) c := by
  unfold unicodeEscape
  rw [bind_eq_ok]
  constructor
  · rintro ⟨⟨u, s₁⟩, hu, h⟩
    obtain ⟨ds, hd, rfl⟩ := codeUnit_four.mp hu
    dsimp only at h
    split at h
    · rename_i hh
      obtain ⟨s₂, h₂, k₂⟩ := bind_eq_ok.mp h
      obtain ⟨s₃, h₃, k₃⟩ := bind_eq_ok.mp k₂
      obtain ⟨⟨v, s₄⟩, h₄, k₄⟩ := bind_eq_ok.mp k₃
      obtain rfl := must_eq_ok.mp h₂
      obtain rfl := must_eq_ok.mp h₃
      obtain ⟨es, he, rfl⟩ := codeUnit_four.mp h₄
      dsimp only at k₄
      split at k₄
      · rename_i hl
        obtain ⟨rfl, rfl⟩ := Prod.mk.inj (Except.ok.inj k₄)
        exact ⟨ds ++ '\\' :: 'u' :: es, by simp, .pair hd hh he hl⟩
      · exact nomatch k₄
    · rename_i hh
      split at h
      · exact nomatch h
      · rename_i hl
        obtain ⟨rfl, rfl⟩ := Prod.mk.inj (Except.ok.inj h)
        exact ⟨ds, rfl, .unit hd hh hl⟩
  · rintro ⟨t, rfl, h⟩
    cases h with
    | short h => exact absurd h (hs _)
    | unit hd hh hl =>
        refine ⟨_, codeUnit_four.mpr ⟨_, hd, rfl⟩, ?_⟩
        simp [hh, hl]
    | @pair ds es u v hd hh he hl =>
        refine ⟨_, codeUnit_four.mpr ⟨ds, hd, by simp; rfl⟩, ?_⟩
        have h₄ : codeUnit 4 0 (es ++ r) = .ok (v, r) := codeUnit_four.mpr ⟨es, he, rfl⟩
        simp [hh, must, h₄, hl]

theorem escape_eq_ok {plain : Char → Prop} {c : Char} {s r : List Char} :
    escape s = .ok (c, r) ↔
      ∃ t, t ≠ [] ∧ s = t ++ r ∧ Spelling plain shortEscapes ('\\' :: t) c := by
  have hu : ∀ d, ('u', d) ∉ shortEscapes := by simp [shortEscapes]
  constructor
  · intro h
    unfold escape at h
    split at h
    · exact nomatch h
    · obtain ⟨t, rfl, ht⟩ := (unicodeEscape_eq_ok plain hu).mp h
      exact ⟨'u' :: t, by simp, rfl, ht⟩
    · rename_i e s _
      split at h
      · rename_i d hd
        obtain ⟨rfl, rfl⟩ := Prod.mk.inj (Except.ok.inj h)
        exact ⟨[e], by simp, rfl, .short (shortEscape?_eq_some.mp hd)⟩
      · exact nomatch h
  · rintro ⟨t, ht, rfl, h⟩
    cases h with
    | plain => exact absurd rfl ht
    | @short e _ h =>
        have he : e ≠ 'u' := by rintro rfl; exact hu _ h
        rw [List.singleton_append, escape, shortEscape?_eq_some.mpr h]
        exact he
    | @unit ds u hd hh hl =>
        exact (unicodeEscape_eq_ok plain hu).mpr ⟨ds, rfl, .unit hd hh hl⟩
    | @pair ds es u v hd hh he hl =>
        exact (unicodeEscape_eq_ok plain hu).mpr ⟨_, rfl, .pair hd hh he hl⟩

theorem stringBody_sound {quote : Char} {n : Nat} {s r cs : List Char}
    (h : stringBody quote n s = .ok (cs, r)) :
    ∃ t, s = t ++ quote :: r ∧ Spells (Plain quote) shortEscapes t cs := by
  induction n generalizing s cs with
  | zero => exact nomatch h
  | succ n ih =>
      cases s with
      | nil => exact nomatch h
      | cons c s =>
          rw [stringBody] at h
          split at h
          · rename_i hc
            obtain ⟨rfl, rfl⟩ := Prod.mk.inj (Except.ok.inj h)
            exact ⟨[], by rw [hc]; rfl, .nil⟩
          split at h
          · rename_i hc
            obtain ⟨⟨d, s₁⟩, h₁, k₁⟩ := bind_eq_ok.mp h
            obtain ⟨⟨ds, s₂⟩, h₂, k₂⟩ := bind_eq_ok.mp k₁
            obtain ⟨rfl, rfl⟩ := Prod.mk.inj (Except.ok.inj k₂)
            obtain ⟨u, -, rfl, hu⟩ := escape_eq_ok.mp h₁
            obtain ⟨t, rfl, ht⟩ := ih h₂
            exact ⟨'\\' :: u ++ t, by simp [hc], .cons hu ht⟩
          split at h
          · exact nomatch h
          · obtain ⟨⟨ds, s₁⟩, h₁, k₁⟩ := bind_eq_ok.mp h
            obtain ⟨rfl, rfl⟩ := Prod.mk.inj (Except.ok.inj k₁)
            obtain ⟨t, rfl, ht⟩ := ih h₁
            exact ⟨c :: t, rfl, .cons (.plain ⟨‹_›, ‹_›, ‹_›⟩) ht⟩

/-- What is spelled is read, and reading goes on behind it. -/
theorem stringBody_append {quote : Char} {t cs : List Char} (hq : quote ≠ '\\')
    (h : Spells (Plain quote) shortEscapes t cs) (n : Nat) (s : List Char) :
    stringBody quote (cs.length + n) (t ++ s) =
      (stringBody quote n s).map fun (ds, r) => (cs ++ ds, r) := by
  induction h with
  | nil =>
      rw [List.length_nil, Nat.zero_add, List.nil_append]
      cases stringBody quote n s <;> rfl
  | @cons t u cs c h _ ih =>
      rw [List.length_cons, Nat.add_right_comm]
      rcases h.head with ⟨rfl, hc⟩ | ⟨w, rfl, hw⟩
      · rw [List.append_assoc, List.singleton_append, stringBody, if_neg hc.1, if_neg hc.2.1,
          if_neg hc.2.2, ih]
        cases stringBody quote n s <;> rfl
      · have he : escape (w ++ (u ++ s)) = .ok (c, u ++ s) := escape_eq_ok.mpr ⟨w, hw, rfl, h⟩
        rw [List.append_assoc, List.cons_append, stringBody, if_neg (Ne.symm hq), if_pos rfl, he,
          ok_bind]
        dsimp only
        rw [ih]
        cases stringBody quote n s <;> rfl

theorem stringBody_complete {quote : Char} {t cs r : List Char} (hq : quote ≠ '\\')
    (h : Spells (Plain quote) shortEscapes t cs) {n : Nat} (hn : cs.length < n) :
    stringBody quote n (t ++ quote :: r) = .ok (cs, r) := by
  obtain ⟨m, rfl⟩ := Nat.exists_eq_add_of_lt hn
  rw [Nat.add_assoc, stringBody_append hq h, stringBody, if_pos rfl]
  exact congrArg (fun ds => Except.ok (ds, r)) (List.append_nil cs)

theorem isQuote_ne {quote : Char} (h : isQuote quote) : quote ≠ '\\' := by
  rintro rfl
  exact absurd h (by decide)

theorem quoted_sound {quote : Char} {size : Nat} {s r : List Char} {k : String}
    (hq : isQuote quote) (h : quoted size quote s = .ok (k, r)) : Quoted (quote :: s) k r := by
  obtain ⟨⟨cs, s₁⟩, h₁, k₁⟩ := bind_eq_ok.mp h
  obtain ⟨rfl, rfl⟩ := Prod.mk.inj (Except.ok.inj k₁)
  obtain ⟨t, rfl, ht⟩ := stringBody_sound h₁
  exact ⟨quote, t, hq, rfl, by simpa using ht⟩

theorem quoted_complete {quote : Char} {size : Nat} {s r : List Char} {k : String}
    (h : Quoted (quote :: s) k r) (hs : s.length ≤ size) :
    quoted size quote s = .ok (k, r) := by
  obtain ⟨q, t, hq, e, ht⟩ := h
  obtain ⟨rfl, rfl⟩ := List.cons.inj e
  simp only [List.length_append, List.length_cons] at hs
  have fits := ht.length_le
  refine bind_eq_ok.mpr ⟨_, stringBody_complete (isQuote_ne hq) ht (by omega), ?_⟩
  simp

theorem Quoted.eq_cons {s r : List Char} {k : String} (h : Quoted s k r) :
    ∃ c t, s = c :: t ∧ isQuote c := by
  obtain ⟨quote, t, hq, rfl, -⟩ := h
  exact ⟨_, _, rfl, hq⟩

theorem settled_quote {c : Char} {s : List Char} (h : isQuote c) : Settled (c :: s) := by
  simp only [isQuote, Bool.or_eq_true, beq_iff_eq] at h
  rcases h with rfl | rfl <;> exact settled_of_not_isBlank (by decide) (by decide)

/-! ### Keys -/

theorem not_isNameStart_of_isQuote {c : Char} (h : isQuote c) : ¬ isNameStart c := by
  simp only [isQuote, Bool.or_eq_true, beq_iff_eq] at h
  rcases h with rfl | rfl <;> decide

theorem key_sound {size : Nat} {s r : List Char} {k : String} (h : key size s = .ok (k, r)) :
    Key s k r := by
  cases s with
  | nil => exact nomatch h
  | cons c s =>
      rw [key] at h
      split at h
      · exact .inr (quoted_sound ‹_› h)
      split at h
      · obtain ⟨rfl, rfl⟩ := Prod.mk.inj (Except.ok.inj h)
        exact .inl (by simpa using name_sound ‹_›)
      · exact nomatch h

theorem key_complete {size : Nat} {s r : List Char} {k : String} (h : Key s k r)
    (hs : s.length ≤ size) : key size s = .ok (k, r) := by
  rcases h with h | h
  · obtain ⟨c, t, rfl, hc⟩ := h.eq_cons
    have hq : ¬ isQuote c := fun hq => not_isNameStart_of_isQuote hq hc
    rw [key, if_neg hq, if_pos hc, name_eq h, String.ofList_toList]
  · obtain ⟨c, t, rfl, hc⟩ := h.eq_cons
    simp only [List.length_cons] at hs
    rw [key, if_pos hc, quoted_complete h (by omega)]

theorem Key.eq_cons {s r : List Char} {k : String} (h : Key s k r) :
    ∃ c t, s = c :: t ∧ (isNameStart c ∨ isQuote c) := by
  rcases h with h | h
  · obtain ⟨c, t, e, hc⟩ := h.eq_cons
    exact ⟨c, t, e, .inl hc⟩
  · obtain ⟨c, t, e, hc⟩ := h.eq_cons
    exact ⟨c, t, e, .inr hc⟩

theorem Key.settled {s r : List Char} {k : String} (h : Key s k r) : Settled s := by
  obtain ⟨c, t, rfl, hc | hc⟩ := h.eq_cons
  · exact settled_nameStart hc
  · exact settled_quote hc

/-! ### Lengths -/

theorem Name.length_lt {s w r : List Char} (h : Name s w r) : r.length < s.length := by
  obtain ⟨c, hc, -⟩ := h.first
  have : w ≠ [] := by rintro rfl; simp at hc
  have := List.length_pos_iff.mpr this
  rw [h.text, List.length_append]
  omega

theorem Quoted.length_lt {s r : List Char} {k : String} (h : Quoted s k r) :
    r.length < s.length := by
  obtain ⟨quote, t, -, rfl, -⟩ := h
  simp only [List.length_cons, List.length_append]
  omega

theorem Key.length_lt {s r : List Char} {k : String} (h : Key s k r) : r.length < s.length :=
  h.elim Name.length_lt Quoted.length_lt

end Sidebar.Script
