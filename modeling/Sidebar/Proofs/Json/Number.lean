import Sidebar.Proofs.Json.Token

/-!
# Json — numbers are read as the grammar says

Each part of a number is read as far as it goes, so what follows a part decides whether it is
whole.

* `number_eq_ok`: what is read is a number of the grammar, and the other way round.
-/

namespace Sidebar.Json

open Sidebar.Text

/-- The text does not go on with a digit. -/
def NoDigit (s : List Char) : Prop := ∀ c ∈ s.head?, ¬ c.isDigit

theorem noDigit_cons {c : Char} {s : List Char} : NoDigit (c :: s) ↔ ¬ c.isDigit := by
  simp [NoDigit]

/-- A row of digits is read as far as it goes. -/
theorem takeWhile_isDigit_eq {s ds : List Char} (h : ds ≠ []) :
    s.takeWhile Char.isDigit = ds ↔
      ∃ r, s = ds ++ r ∧ Digits ds ∧ NoDigit r ∧ s.dropWhile Char.isDigit = r := by
  constructor
  · rintro rfl
    exact ⟨_, List.takeWhile_append_dropWhile.symm, ⟨h, List.all_eq_true.mp List.all_takeWhile⟩,
      fun _ => not_of_mem_head?_dropWhile, rfl⟩
  · rintro ⟨r, rfl, hd, hr, -⟩
    exact takeWhile_append_eq hd.2 hr

/-! ### The whole part -/

theorem whole_zero : Whole ['0'] :=
  ⟨⟨by simp, List.all_eq_true.mp (by decide)⟩, fun _ _ e _ => (List.cons.inj e).2 ▸ rfl⟩

theorem wholePart_eq_ok {s w r : List Char} :
    wholePart s = .ok (w, r) ↔ s = w ++ r ∧ Whole w ∧ NoDigit r := by
  constructor
  · intro h
    unfold wholePart at h
    split at h
    · exact nomatch h
    rename_i c s
    split at h
    · rename_i hc
      subst hc
      split at h
      · split at h
        · exact nomatch h
        · rename_i hd
          obtain ⟨rfl, rfl⟩ := Prod.mk.inj (Except.ok.inj h)
          exact ⟨rfl, whole_zero, noDigit_cons.mpr hd⟩
      · obtain ⟨rfl, rfl⟩ := Prod.mk.inj (Except.ok.inj h)
        exact ⟨rfl, whole_zero, by simp [NoDigit]⟩
    split at h
    · rename_i h₀ hc
      obtain ⟨rfl, rfl⟩ := Prod.mk.inj (Except.ok.inj h)
      refine ⟨by simp, ⟨⟨by simp, ?_⟩, ?_⟩, fun _ => not_of_mem_head?_dropWhile⟩
      · exact List.forall_mem_cons.mpr ⟨hc, List.all_eq_true.mp List.all_takeWhile⟩
      · intro d t e hd
        exact absurd ((List.cons.inj e).1.trans hd) h₀
    · exact nomatch h
  · rintro ⟨rfl, ⟨⟨hne, hd⟩, h₀⟩, hr⟩
    obtain ⟨c, t, rfl⟩ := List.exists_cons_of_ne_nil hne
    rw [List.forall_mem_cons] at hd
    rw [List.cons_append]
    unfold wholePart
    dsimp only
    split
    · rename_i hc
      obtain rfl := h₀ c t rfl hc
      cases r with
      | nil => rfl
      | cons d r => simp [noDigit_cons.mp hr]
    · rw [if_pos hd.1, takeWhile_append_eq hd.2 hr, dropWhile_append_eq hd.2 hr]

/-! ### The fraction -/

theorem fractionPart_eq_ok {s ds r : List Char} :
    fractionPart s = .ok (ds, r) ↔ ∃ f, s = f ++ r ∧ Fraction f ds ∧
      (f = [] → ∀ c ∈ r.head?, c ≠ '.') ∧ (f ≠ [] → NoDigit r) := by
  constructor
  · intro h
    unfold fractionPart at h
    split at h
    · split at h
      · exact absurd h stopBefore_ne_ok
      · rename_i hne
        obtain ⟨rfl, rfl⟩ := Prod.mk.inj (Except.ok.inj h)
        obtain ⟨r, e, hd, hr, rfl⟩ := (takeWhile_isDigit_eq hne).mp rfl
        exact ⟨_, congrArg _ e, .digits hd, by simp, fun _ => hr⟩
    · rename_i hp
      obtain ⟨rfl, rfl⟩ := Prod.mk.inj (Except.ok.inj h)
      refine ⟨[], rfl, .none, fun _ c hc e => ?_, by simp⟩
      cases s with
      | nil => simp at hc
      | cons d s =>
          obtain rfl : d = c := by simpa using hc
          exact hp s (by rw [e])
  · rintro ⟨f, rfl, hf, h₁, h₂⟩
    cases hf with
    | none =>
        unfold fractionPart
        split
        · rename_i e
          exact absurd rfl (h₁ rfl '.' (by rw [List.nil_append] at e; simp [e]))
        · rfl
    | digits hd =>
        have hr := h₂ (by simp)
        rw [List.cons_append, fractionPart, takeWhile_append_eq hd.2 hr,
          dropWhile_append_eq hd.2 hr]
        split
        · exact absurd rfl hd.1
        · rfl

/-! ### The exponent -/

theorem le_digitsValue (n : Nat) (ds : List Char) :
    n ≤ ds.foldl (fun n c => n * 10 + (c.toNat - 48)) n := by
  induction ds generalizing n with
  | nil => exact Nat.le_refl n
  | cons c ds ih => exact Nat.le_trans (by omega) (ih (n * 10 + (c.toNat - 48)))

/-- The digits of an exponent exceed the greatest one somewhere when all of them together do. -/
theorem excess?_eq_none {n : Nat} {s : List Char} (hn : n ≤ maxExponent) :
    excess? n s = none ↔
      (s.takeWhile Char.isDigit).foldl (fun n c => n * 10 + (c.toNat - 48)) n ≤ maxExponent := by
  induction s generalizing n with
  | nil => simp [excess?, hn]
  | cons c s ih =>
      rw [excess?]
      split
      · rename_i hc
        rw [List.takeWhile_cons_of_pos hc, List.foldl_cons]
        split
        · rename_i hm
          exact ih hm
        · rename_i hm
          have := le_digitsValue (n * 10 + (c.toNat - 48)) (s.takeWhile Char.isDigit)
          simp only [reduceCtorEq, false_iff]
          omega
      · rename_i hc
        rw [List.takeWhile_cons_of_neg hc]
        simpa using hn

theorem exponentDigits_eq_ok {negative isZero : Bool} {s r : List Char} {x : Int} :
    exponentDigits negative isZero s = .ok (x, r) ↔
      ∃ ds, s = ds ++ r ∧ Digits ds ∧ NoDigit r ∧
        (digitsValue ds ≤ maxExponent ∨ negative || isZero) ∧
        x = if negative then -(digitsValue ds : Int) else digitsValue ds := by
  unfold exponentDigits
  constructor
  · intro h
    split at h
    · exact absurd h stopBefore_ne_ok
    rename_i hne
    obtain ⟨r', e, hd, hr, he⟩ := (takeWhile_isDigit_eq hne).mp rfl
    split at h
    · exact nomatch h
    rename_i hx
    obtain ⟨rfl, rfl⟩ := Prod.mk.inj (Except.ok.inj h)
    refine ⟨_, he ▸ e, hd, he ▸ hr, ?_, rfl⟩
    -- digits that exceed the greatest exponent are let through for a reason of the sign or of zero
    cases h₀ : excess? 0 s with
    | none => exact .inl ((excess?_eq_none (Nat.zero_le _)).mp h₀)
    | some r => exact .inr (Bool.of_not_eq_false (hx r h₀))
  · rintro ⟨ds, rfl, hd, hr, hs, rfl⟩
    rw [takeWhile_append_eq hd.2 hr, dropWhile_append_eq hd.2 hr]
    split
    · exact absurd rfl hd.1
    split
    · rename_i h₀ h₁
      rw [h₁] at hs
      have := (excess?_eq_none (s := ds ++ r) (Nat.zero_le _)).mpr
        (by rw [takeWhile_append_eq hd.2 hr]; exact hs.resolve_right (by simp))
      exact nomatch h₀.symm.trans this
    · rfl

theorem exponentSign_sound (s : List Char) :
    ∃ sign, (sign, (exponentSign s).1) ∈ signs ∧ s = sign ++ (exponentSign s).2 := by
  unfold exponentSign
  split
  · exact ⟨['+'], by simp [signs], rfl⟩
  · exact ⟨['-'], by simp [signs], rfl⟩
  · exact ⟨[], by simp [signs], rfl⟩

theorem exponentSign_complete {sign ds r : List Char} {negative : Bool}
    (hs : (sign, negative) ∈ signs) (hd : Digits ds) :
    exponentSign (sign ++ (ds ++ r)) = (negative, ds ++ r) := by
  obtain ⟨c, t, rfl⟩ := List.exists_cons_of_ne_nil hd.1
  have hc := hd.2 c (by simp)
  have h₁ : c ≠ '+' := by rintro rfl; exact absurd hc (by decide)
  have h₂ : c ≠ '-' := by rintro rfl; exact absurd hc (by decide)
  simp only [signs, List.mem_cons, Prod.mk.injEq, List.not_mem_nil, or_false] at hs
  rcases hs with ⟨rfl, rfl⟩ | ⟨rfl, rfl⟩ | ⟨rfl, rfl⟩
  · simp [exponentSign, h₁, h₂]
  · rfl
  · rfl

theorem exponentPart_eq_ok {isZero : Bool} {s r : List Char} {e : Int} :
    exponentPart isZero s = .ok (e, r) ↔ ∃ x, s = x ++ r ∧ Exponent isZero x e ∧
      (x = [] → ∀ c ∈ r.head?, c ≠ 'e' ∧ c ≠ 'E') ∧ (x ≠ [] → NoDigit r) := by
  constructor
  · intro h
    cases s with
    | nil =>
        obtain ⟨rfl, rfl⟩ := Prod.mk.inj (Except.ok.inj h)
        exact ⟨[], rfl, .none, by simp, by simp⟩
    | cons c s =>
        rw [exponentPart] at h
        split at h
        · rename_i hc
          obtain ⟨sign, hs, e⟩ := exponentSign_sound s
          obtain ⟨ds, hds, hd, hr, small, rfl⟩ := exponentDigits_eq_ok.mp h
          rw [hds] at e
          exact ⟨c :: (sign ++ ds), by simp [e], .digits hc hs hd small, by simp, fun _ => hr⟩
        · rename_i hc
          obtain ⟨rfl, rfl⟩ := Prod.mk.inj (Except.ok.inj h)
          exact ⟨[], rfl, .none, by simpa using hc, by simp⟩
  · rintro ⟨x, rfl, hx, h₁, h₂⟩
    cases hx with
    | none =>
        rw [List.nil_append]
        cases r with
        | nil => rfl
        | cons c r =>
            have hc : ¬ (c = 'e' ∨ c = 'E') := not_or.mpr (h₁ rfl c rfl)
            rw [exponentPart, if_neg hc]
    | digits he hs hd small =>
        rw [List.cons_append, exponentPart, if_pos he, List.append_assoc,
          exponentSign_complete hs hd]
        exact exponentDigits_eq_ok.mpr ⟨_, rfl, hd, h₂ (by simp), small, rfl⟩

/-! ### The number -/

theorem Exponent.noDigit_append {isZero : Bool} {x r : List Char} {e : Int}
    (h : Exponent isZero x e) (hr : NoDigit r) : NoDigit (x ++ r) := by
  cases h with
  | none => exact hr
  | digits he => rcases he with rfl | rfl <;> exact noDigit_cons.mpr (by decide)

theorem Fraction.noDigit_append {f ds r : List Char} (h : Fraction f ds) (hr : NoDigit r) :
    NoDigit (f ++ r) := by
  cases h with
  | none => exact hr
  | digits => exact noDigit_cons.mpr (by decide)

theorem number_sound {negative : Bool} {s r : List Char} {n : Decimal}
    (h : number negative s = .ok (n, r)) : Number negative s n r := by
  obtain ⟨⟨whole, s₁⟩, h₁, k₁⟩ := bind_eq_ok.mp h
  obtain ⟨⟨fraction, s₂⟩, h₂, k₂⟩ := bind_eq_ok.mp k₁
  obtain ⟨⟨exponent, s₃⟩, h₃, k₃⟩ := bind_eq_ok.mp k₂
  obtain ⟨rfl, hw, e₁⟩ := wholePart_eq_ok.mp h₁
  obtain ⟨f, rfl, hf, f₂, e₂⟩ := fractionPart_eq_ok.mp h₂
  obtain ⟨x, rfl, hx, f₃, e₃⟩ := exponentPart_eq_ok.mp h₃
  dsimp only at k₃
  split at k₃
  · exact nomatch k₃
  rename_i held
  obtain ⟨rfl, rfl⟩ := Prod.mk.inj (Except.ok.inj k₃)
  refine .mk (by simp) hw hf hx (fun c hc => ⟨?_, fun h => f₃ h c hc, ?_⟩) (by simpa using held)
  · cases hx with
    | digits => exact e₃ (by simp) c hc
    | none =>
        cases hf with
        | digits => exact e₂ (by simp) c hc
        | none => exact e₁ c hc
  · rintro rfl rfl
    exact f₂ rfl c hc

theorem Number.number_eq {negative : Bool} {s r : List Char} {n : Decimal}
    (h : Number negative s n r) : number negative s = .ok (n, r) := by
  obtain ⟨rfl, hw, hf, hx, ends, held⟩ := h
  rename_i whole f fraction x exponent
  -- each part is followed by the next one, or by the rest where the next one is empty
  have hr : NoDigit r := fun c hc => (ends c hc).1
  have hxr := hx.noDigit_append hr
  have f₂ : f = [] → ∀ c ∈ (x ++ r).head?, c ≠ '.' := by
    intro hf c hc
    cases hx with
    | none => exact (ends c hc).2.2 rfl hf
    | digits he =>
        obtain rfl := Option.some.inj hc
        rcases he with rfl | rfl <;> decide
  have f₃ : x = [] → ∀ c ∈ r.head?, c ≠ 'e' ∧ c ≠ 'E' := fun h c hc => (ends c hc).2.1 h
  refine bind_eq_ok.mpr ⟨_, wholePart_eq_ok.mpr ⟨by simp, hw, hf.noDigit_append hxr⟩, ?_⟩
  refine bind_eq_ok.mpr ⟨_, fractionPart_eq_ok.mpr ⟨f, rfl, hf, f₂, fun _ => hxr⟩, ?_⟩
  refine bind_eq_ok.mpr ⟨_, exponentPart_eq_ok.mpr ⟨x, rfl, hx, f₃, fun _ => hr⟩, ?_⟩
  simp [held]

theorem number_eq_ok {negative : Bool} {s r : List Char} {n : Decimal} :
    number negative s = .ok (n, r) ↔ Number negative s n r :=
  ⟨number_sound, Number.number_eq⟩

theorem Number.eq_cons {negative : Bool} {s r : List Char} {n : Decimal}
    (h : Number negative s n r) : ∃ c t, s = c :: t ∧ c.isDigit := by
  obtain ⟨rfl, hw, -, -, -, -⟩ := h
  obtain ⟨c, t, rfl⟩ := List.exists_cons_of_ne_nil hw.1.1
  exact ⟨c, _, rfl, hw.1.2 c (by simp)⟩

theorem Number.length_lt {negative : Bool} {s r : List Char} {n : Decimal}
    (h : Number negative s n r) : r.length < s.length := by
  obtain ⟨rfl, hw, -, -, -, -⟩ := h
  have := List.length_pos_iff.mpr hw.1.1
  simp only [List.length_append]
  omega

end Sidebar.Json
