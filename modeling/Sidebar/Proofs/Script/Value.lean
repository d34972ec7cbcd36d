import Sidebar.Proofs.Value.Keys
import Sidebar.Proofs.Value.Nesting
import Sidebar.Proofs.Script.Token

/-!
# Script — values are read as the grammar says

The reader of values counts the levels of nesting it may still enter, and the items and
characters it may still take.  The first count is the nesting of the value; the length of the
text is enough of the others.

* `value_sound`: what is read is a value of the grammar, of at most that nesting.
* `Denotes.value_eq`: a value of the grammar, of at most that nesting, is read.
* `Denotes.unique`: a text begins with one value at most.
-/

namespace Sidebar.Script

open Sidebar.Text

/-! ### What is read is in the grammar -/

theorem expect_eq_ok {c : Char} {s r : List Char} : expect c s = .ok r ↔ s = c :: r := by
  cases s with
  | nil => simp [expect]
  | cons d s => by_cases h : d = c <;> simp [expect, h]

section
variable {item : Reader Value} {levels : Nat}
  (hi : ∀ {s v r}, item s = .ok (v, r) → Denotes s v r ∧ v.nesting ≤ levels)

include hi

theorem items_sound {n : Nat} {s r : List Char} {vs : List Value}
    (h : items item n s = .ok (vs, r)) : Items s vs r ∧ ∀ v ∈ vs, v.nesting ≤ levels := by
  induction n generalizing s vs with
  | zero => exact nomatch h
  | succ n ih =>
      rw [items] at h
      obtain ⟨s₁, g₁, k₁⟩ := bind_eq_ok.mp h
      replace g₁ := (gap_eq_ok.mp g₁).1
      split at k₁
      · obtain ⟨rfl, rfl⟩ := Prod.mk.inj (Except.ok.inj k₁)
        exact ⟨.close g₁, by simp⟩
      obtain ⟨⟨v, s₂⟩, hv, k₂⟩ := bind_eq_ok.mp k₁
      obtain ⟨s₃, g₂, k₃⟩ := bind_eq_ok.mp k₂
      obtain ⟨hv, hn⟩ := hi hv
      replace g₂ := (gap_eq_ok.mp g₂).1
      split at k₃
      · obtain ⟨⟨us, s₄⟩, hu, k₄⟩ := bind_eq_ok.mp k₃
        obtain ⟨rfl, rfl⟩ := Prod.mk.inj (Except.ok.inj k₄)
        obtain ⟨hu, hm⟩ := ih hu
        exact ⟨.next g₁ hv g₂ hu, by simpa [hn] using hm⟩
      · obtain ⟨rfl, rfl⟩ := Prod.mk.inj (Except.ok.inj k₃)
        exact ⟨.last g₁ hv g₂, by simpa using hn⟩
      · exact nomatch k₃

theorem fields_sound {size n : Nat} {seen : List String} {s r : List Char}
    {fs : List (String × Value)} (h : fields size item n seen s = .ok (fs, r)) :
    Fields s fs r ∧ (∀ f ∈ fs, f.2.nesting ≤ levels) ∧ Value.Unseen seen fs := by
  induction n generalizing s seen fs with
  | zero => exact nomatch h
  | succ n ih =>
      rw [fields] at h
      obtain ⟨s₁, g₁, k₁⟩ := bind_eq_ok.mp h
      replace g₁ := (gap_eq_ok.mp g₁).1
      split at k₁
      · obtain ⟨rfl, rfl⟩ := Prod.mk.inj (Except.ok.inj k₁)
        exact ⟨.close g₁, by simp, Value.unseen_nil⟩
      obtain ⟨⟨k, s₂⟩, hk, k₂⟩ := bind_eq_ok.mp k₁
      obtain ⟨s₃, g₂, k₃⟩ := bind_eq_ok.mp k₂
      obtain ⟨s₄, hc, k₄⟩ := bind_eq_ok.mp k₃
      obtain ⟨s₅, g₃, k₅⟩ := bind_eq_ok.mp k₄
      obtain ⟨⟨v, s₆⟩, hv, k₆⟩ := bind_eq_ok.mp k₅
      obtain rfl := expect_eq_ok.mp hc
      obtain ⟨hv, hn⟩ := hi hv
      have hf := Field.mk (key_sound hk) (gap_eq_ok.mp g₂).1 (gap_eq_ok.mp g₃).1 hv
      dsimp only at k₆
      split at k₆
      · exact nomatch k₆
      rename_i hs
      obtain ⟨s₇, g₄, k₇⟩ := bind_eq_ok.mp k₆
      replace g₄ := (gap_eq_ok.mp g₄).1
      split at k₇
      · obtain ⟨⟨gs, s₈⟩, hg, k₈⟩ := bind_eq_ok.mp k₇
        obtain ⟨rfl, rfl⟩ := Prod.mk.inj (Except.ok.inj k₈)
        obtain ⟨hg, hm, hs'⟩ := ih hg
        exact ⟨.next g₁ hf g₄ hg, List.forall_mem_cons.mpr ⟨hn, hm⟩,
          Value.unseen_cons.mpr ⟨hs, hs'⟩⟩
      · obtain ⟨rfl, rfl⟩ := Prod.mk.inj (Except.ok.inj k₇)
        exact ⟨.last g₁ hf g₄, by simpa using hn, Value.unseen_cons.mpr ⟨hs, Value.unseen_nil⟩⟩
      · exact nomatch k₇

end

theorem value_sound {size levels : Nat} {s r : List Char} {v : Value}
    (h : value size levels s = .ok (v, r)) : Denotes s v r ∧ v.nesting ≤ levels := by
  -- the items of a bracket are read with one level less, whatever their number
  induction levels using Nat.strongRecOn generalizing s v r with
  | ind levels ih =>
      unfold value at h
      split at h
      · exact nomatch h
      · exact nomatch h
      · exact nomatch h
      · obtain ⟨⟨fs, s₁⟩, hf, k₁⟩ := bind_eq_ok.mp h
        obtain ⟨rfl, rfl⟩ := Prod.mk.inj (Except.ok.inj k₁)
        obtain ⟨hf, hn, hd⟩ := fields_sound (ih _ (Nat.lt_succ_self _)) hf
        exact ⟨.record hf (Value.unseen_empty.mp hd), Value.nesting_record_le.mpr ⟨_, rfl, hn⟩⟩
      · obtain ⟨⟨vs, s₁⟩, hv, k₁⟩ := bind_eq_ok.mp h
        obtain ⟨rfl, rfl⟩ := Prod.mk.inj (Except.ok.inj k₁)
        obtain ⟨hv, hn⟩ := items_sound (ih _ (Nat.lt_succ_self _)) hv
        exact ⟨.sequence hv, Value.nesting_sequence_le.mpr ⟨_, rfl, hn⟩⟩
      · split at h
        · obtain ⟨⟨t, s₁⟩, ht, k₁⟩ := bind_eq_ok.mp h
          obtain ⟨rfl, rfl⟩ := Prod.mk.inj (Except.ok.inj k₁)
          exact ⟨.string (quoted_sound ‹_› ht), by simp⟩
        · exact nomatch h

/-! ### What is in the grammar is read -/

mutual

theorem Denotes.length_lt : {s r : List Char} → {v : Value} → Denotes s v r →
    r.length < s.length
  | _, _, _, .string h => h.length_lt
  | _, _, _, .sequence h => by have := h.length_lt; rw [List.length_cons]; omega
  | _, _, _, .record h _ => by have := h.length_lt; rw [List.length_cons]; omega

theorem Items.length_lt : {s r : List Char} → {vs : List Value} → Items s vs r →
    r.length < s.length
  | _, _, _, .close g => g.length_le
  | _, _, _, .last g₁ h g₂ => by
      have := g₁.length_le; have := h.length_lt; have := g₂.length_le
      rw [List.length_cons] at this; omega
  | _, _, _, .next g₁ h g₂ t => by
      have := g₁.length_le; have := h.length_lt; have := g₂.length_le; have := t.length_lt
      simp only [List.length_cons] at *; omega

theorem Field.length_lt : {s r : List Char} → {f : String × Value} → Field s f r →
    r.length < s.length
  | _, _, _, .mk hk g₁ g₂ h => by
      have := hk.length_lt; have := g₁.length_le; have := g₂.length_le; have := h.length_lt
      simp only [List.length_cons] at *; omega

theorem Fields.length_lt : {s r : List Char} → {fs : List (String × Value)} → Fields s fs r →
    r.length < s.length
  | _, _, _, .close g => g.length_le
  | _, _, _, .last g₁ h g₂ => by
      have := g₁.length_le; have := h.length_lt; have := g₂.length_le
      rw [List.length_cons] at this; omega
  | _, _, _, .next g₁ h g₂ t => by
      have := g₁.length_le; have := h.length_lt; have := g₂.length_le; have := t.length_lt
      simp only [List.length_cons] at *; omega

end

/-- A value begins with a quote or an opening bracket. -/
theorem Denotes.eq_cons {s r : List Char} {v : Value} (h : Denotes s v r) :
    ∃ c t, s = c :: t ∧ c ∈ ['"', '\'', '[', '{'] := by
  cases h with
  | string h =>
      obtain ⟨c, t, rfl, hc⟩ := h.eq_cons
      refine ⟨c, t, rfl, ?_⟩
      simp only [isQuote, Bool.or_eq_true, beq_iff_eq] at hc
      rcases hc with rfl | rfl <;> simp
  | sequence => exact ⟨_, _, rfl, by decide⟩
  | record => exact ⟨_, _, rfl, by decide⟩

theorem Denotes.settled {s r : List Char} {v : Value} (h : Denotes s v r) : Settled s := by
  obtain ⟨c, t, rfl, hc⟩ := h.eq_cons
  refine settled_of_not_isBlank ?_ (not_of_all (by decide) hc)
  rintro rfl
  exact absurd hc (by decide)

theorem Denotes.ne_close {s r t : List Char} {v : Value} (h : Denotes s v r) : s ≠ ']' :: t := by
  obtain ⟨c, u, rfl, hc⟩ := h.eq_cons
  rintro e
  rw [(List.cons.inj e).1] at hc
  exact absurd hc (by decide)

theorem Field.settled {s r : List Char} {f : String × Value} (h : Field s f r) : Settled s := by
  obtain ⟨hk, -, -, -⟩ := h
  exact hk.settled

theorem Field.ne_close {s r t : List Char} {f : String × Value} (h : Field s f r) :
    s ≠ '}' :: t := by
  obtain ⟨hk, -, -, -⟩ := h
  obtain ⟨c, u, rfl, hc⟩ := hk.eq_cons
  rintro e
  rw [(List.cons.inj e).1] at hc
  exact absurd hc (by decide)

theorem value_quote {size levels : Nat} {c : Char} {s : List Char} (hc : isQuote c) :
    value size levels (c :: s) =
      (quoted size c s >>= fun (t, s) => .ok (.string t, s)) := by
  have h₁ : c ≠ '{' := by rintro rfl; exact absurd hc (by decide)
  have h₂ : c ≠ '[' := by rintro rfl; exact absurd hc (by decide)
  unfold value
  split
  · exact absurd ‹_› (List.cons_ne_nil _ _)
  · exact absurd (List.cons.inj ‹_›).1 h₁
  · exact absurd (List.cons.inj ‹_›).1 h₂
  · exact absurd (List.cons.inj ‹_›).1 h₁
  · exact absurd (List.cons.inj ‹_›).1 h₂
  · rename_i e
    obtain ⟨rfl, rfl⟩ := List.cons.inj e
    rw [if_pos hc]

/-- Reading the items from a place where another one begins. -/
theorem items_of_ne {item : Reader Value} {n : Nat} {s s₁ : List Char} (g : gap s = .ok s₁)
    (h : ∀ t, s₁ ≠ ']' :: t) :
    items item (n + 1) s = (item s₁ >>= fun (v, s) => gap s >>= fun s =>
      match s with
      | ',' :: s => items item n s >>= fun (vs, s) => .ok (v :: vs, s)
      | ']' :: s => .ok ([v], s)
      | _        => .error ⟨.itemUnended, s⟩) := by
  rw [items, g, ok_bind]
  split
  · exact absurd rfl (h _)
  · rfl

/-- Reading the fields from a place where another one begins. -/
theorem fields_of_ne {item : Reader Value} {size n : Nat} {seen : List String} {k : String}
    {v : Value} {s s₁ s₂ s₃ s₄ s₅ r : List Char} (g : gap s = .ok s₁)
    (h : ∀ t, s₁ ≠ '}' :: t) (hk : key size s₁ = .ok (k, s₂)) (g₁ : gap s₂ = .ok s₃)
    (hc : expect ':' s₃ = .ok s₄) (g₂ : gap s₄ = .ok s₅) (hv : item s₅ = .ok (v, r))
    (hs : k ∉ seen) :
    fields size item (n + 1) seen s = (gap r >>= fun r =>
      match r with
      | ',' :: r => fields size item n (k :: seen) r >>= fun (fs, r) => .ok ((k, v) :: fs, r)
      | '}' :: r => .ok ([(k, v)], r)
      | _        => .error ⟨.fieldUnended, r⟩) := by
  rw [fields, g, ok_bind]
  split
  · exact absurd rfl (h _)
  · rw [hk, ok_bind]
    dsimp only
    rw [g₁, ok_bind, hc, ok_bind, g₂, ok_bind, hv, ok_bind]
    exact if_neg hs

mutual

/-- A value of the grammar is read, with as many levels as it has and counts above the length of
the text. -/
theorem Denotes.value_eq : {s r : List Char} → {v : Value} → Denotes s v r →
    ∀ {size levels : Nat}, s.length < size → v.nesting ≤ levels →
      value size levels s = .ok (v, r)
  | _, _, _, .string h, size, levels, hs, _ => by
      obtain ⟨c, t, rfl, hc⟩ := h.eq_cons
      rw [List.length_cons] at hs
      rw [value_quote hc, quoted_complete h (by omega)]
      rfl
  | _, _, _, .sequence h, size, levels, hs, hn => by
      obtain ⟨levels, rfl, hv⟩ := Value.nesting_sequence_le.mp hn
      rw [List.length_cons] at hs
      rw [value, h.items_eq (by omega) (by omega) hv]
      rfl
  | _, _, _, .record h hd, size, levels, hs, hn => by
      obtain ⟨levels, rfl, hf⟩ := Value.nesting_record_le.mp hn
      rw [List.length_cons] at hs
      rw [value, h.fields_eq (by omega) (by omega) hf (Value.unseen_empty.mpr hd)]
      rfl

theorem Items.items_eq : {s r : List Char} → {vs : List Value} → Items s vs r →
    ∀ {size levels n : Nat}, s.length < size → s.length < n → (∀ v ∈ vs, v.nesting ≤ levels) →
      items (fun s => value size levels s) n s = .ok (vs, r)
  | _, _, _, .close g, size, levels, n + 1, _, _, _ => by
      rw [items, gap_complete g (settled_mark (by decide))]
      rfl
  | _, _, _, .last g₁ h g₂, size, levels, n + 1, hs, hm, hn => by
      have := g₁.length_le
      rw [items_of_ne (gap_complete g₁ h.settled) fun t => h.ne_close,
        h.value_eq (by omega) (hn _ (by simp)), ok_bind]
      dsimp only
      rw [gap_complete g₂ (settled_mark (by decide))]
      rfl
  | _, _, _, .next g₁ h g₂ t, size, levels, n + 1, hs, hm, hn => by
      have := g₁.length_le; have := h.length_lt; have := g₂.length_le
      rw [List.forall_mem_cons] at hn
      rw [items_of_ne (gap_complete g₁ h.settled) fun t => h.ne_close,
        h.value_eq (by omega) hn.1, ok_bind]
      dsimp only
      rw [gap_complete g₂ (settled_mark (by decide)), ok_bind]
      simp only [List.length_cons] at *
      rw [t.items_eq (by omega) (by omega) hn.2]
      rfl

theorem Field.field_eq : {s r : List Char} → {f : String × Value} → Field s f r →
    ∀ size levels : Nat, s.length < size → f.2.nesting ≤ levels → ∃ s₁ s₂ s₃ s₄,
      key size s = .ok (f.1, s₁) ∧ gap s₁ = .ok s₂ ∧ expect ':' s₂ = .ok s₃ ∧
        gap s₃ = .ok s₄ ∧ value size levels s₄ = .ok (f.2, r)
  | _, _, _, .mk hk g₁ g₂ h, size, levels, hs, hn => by
      have := hk.length_lt; have := g₁.length_le; have := g₂.length_le
      simp only [List.length_cons] at *
      exact ⟨_, _, _, _, key_complete hk (by omega), gap_complete g₁ (settled_mark (by decide)),
        expect_eq_ok.mpr rfl, gap_complete g₂ h.settled, h.value_eq (by omega) hn⟩

theorem Fields.fields_eq : {s r : List Char} → {fs : List (String × Value)} → Fields s fs r →
    ∀ {size levels n : Nat} {seen : List String}, s.length < size → s.length < n →
      (∀ f ∈ fs, f.2.nesting ≤ levels) → Value.Unseen seen fs →
      fields size (fun s => value size levels s) n seen s = .ok (fs, r)
  | _, _, _, .close g, size, levels, n + 1, seen, _, _, _, _ => by
      rw [fields, gap_complete g (settled_mark (by decide))]
      rfl
  | _, _, _, .last g₁ h g₂, size, levels, n + 1, seen, hs, hm, hn, hd => by
      have := g₁.length_le
      obtain ⟨s₁, s₂, s₃, s₄, h₁, h₂, h₃, h₄, h₅⟩ :=
        h.field_eq size levels (by omega) (hn _ (by simp))
      rw [fields_of_ne (gap_complete g₁ h.settled) (fun t => h.ne_close) h₁ h₂ h₃ h₄ h₅
        (Value.unseen_cons.mp hd).1, gap_complete g₂ (settled_mark (by decide))]
      rfl
  | _, _, _, .next g₁ h g₂ t, size, levels, n + 1, seen, hs, hm, hn, hd => by
      have := g₁.length_le; have := h.length_lt; have := g₂.length_le
      rw [List.forall_mem_cons] at hn
      rw [Value.unseen_cons] at hd
      obtain ⟨s₁, s₂, s₃, s₄, h₁, h₂, h₃, h₄, h₅⟩ := h.field_eq size levels (by omega) hn.1
      rw [fields_of_ne (gap_complete g₁ h.settled) (fun t => h.ne_close) h₁ h₂ h₃ h₄ h₅ hd.1,
        gap_complete g₂ (settled_mark (by decide)), ok_bind]
      simp only [List.length_cons] at *
      rw [t.fields_eq (by omega) (by omega) hn.2 hd.2]
      rfl

end

/-- A text begins with one value at most. -/
theorem Denotes.unique {s r r' : List Char} {v v' : Value} (h : Denotes s v r)
    (h' : Denotes s v' r') : v = v' ∧ r = r' := by
  have e := h.value_eq (Nat.lt_succ_self _) (Nat.le_max_left v.nesting v'.nesting)
  have e' := h'.value_eq (Nat.lt_succ_self _) (Nat.le_max_right v.nesting v'.nesting)
  exact Prod.mk.inj (Except.ok.inj (e.symm.trans e'))

/-! ### Keys -/

mutual

theorem Denotes.plain : {s r : List Char} → {v : Value} → Denotes s v r → v.Plain
  | _, _, _, .string _ => .string _
  | _, _, _, .sequence h => .sequence h.plain
  | _, _, _, .record h hd => .record hd h.plain

theorem Items.plain : {s r : List Char} → {vs : List Value} → Items s vs r → ∀ v ∈ vs, v.Plain
  | _, _, _, .close _ => by simp
  | _, _, _, .last _ h _ => by simpa using h.plain
  | _, _, _, .next _ h _ t => List.forall_mem_cons.mpr ⟨h.plain, t.plain⟩

theorem Field.plain : {s r : List Char} → {f : String × Value} → Field s f r → f.2.Plain
  | _, _, _, .mk _ _ _ h => h.plain

theorem Fields.plain : {s r : List Char} → {fs : List (String × Value)} → Fields s fs r →
    ∀ f ∈ fs, f.2.Plain
  | _, _, _, .close _ => by simp
  | _, _, _, .last _ h _ => by simpa using h.plain
  | _, _, _, .next _ h _ t => List.forall_mem_cons.mpr ⟨h.plain, t.plain⟩

end

end Sidebar.Script
