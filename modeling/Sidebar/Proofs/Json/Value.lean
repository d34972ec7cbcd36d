import Sidebar.Proofs.Value.Keys
import Sidebar.Proofs.Value.Nesting
import Sidebar.Proofs.Json.Number

/-!
# Json — values are read as the grammar says

The reader of values counts the levels of nesting it may still enter, and the items and
characters it may still take.  The first count is the nesting of the value; the length of the
text is enough of the others.

* `value_sound`: what is read is a value of the grammar, of at most that nesting.
* `Denotes.value_eq`: a value of the grammar, of at most that nesting, is read.
* `Denotes.unique`: a text begins with one value at most.
* `document_eq_ok`: the documents that are read.
-/

namespace Sidebar.Json

open Sidebar.Text

/-! ### What is read is in the grammar -/

/-- A word and its value. -/
theorem word_value_eq_ok {w s r : List Char} {u v : Value} :
    (word w s >>= fun s => (.ok (u, s) : Except Fault (Value × List Char))) = .ok (v, r) ↔
      v = u ∧ s = w ++ r := by
  rw [bind_eq_ok]
  constructor
  · rintro ⟨s₁, hw, h⟩
    obtain ⟨rfl, rfl⟩ := Prod.mk.inj (Except.ok.inj h)
    exact ⟨rfl, word_eq_ok.mp hw⟩
  · rintro ⟨rfl, hw⟩
    exact ⟨r, word_eq_ok.mpr hw, rfl⟩

theorem scalar_sound {size : Nat} {s r : List Char} {v : Value}
    (h : scalar size s = .ok (v, r)) : Denotes s v r ∧ v.nesting = 0 := by
  unfold scalar at h
  split at h
  · obtain ⟨rfl, rfl⟩ := word_value_eq_ok.mp h
    exact ⟨.null, rfl⟩
  · obtain ⟨rfl, rfl⟩ := word_value_eq_ok.mp h
    exact ⟨.true, rfl⟩
  · obtain ⟨rfl, rfl⟩ := word_value_eq_ok.mp h
    exact ⟨.false, rfl⟩
  · obtain ⟨⟨t, s₁⟩, ht, k₁⟩ := bind_eq_ok.mp h
    obtain ⟨rfl, rfl⟩ := Prod.mk.inj (Except.ok.inj k₁)
    exact ⟨.string (quoted_sound ht), rfl⟩
  · obtain ⟨⟨n, s₁⟩, hn, k₁⟩ := bind_eq_ok.mp h
    obtain ⟨rfl, rfl⟩ := Prod.mk.inj (Except.ok.inj k₁)
    exact ⟨.negative (number_eq_ok.mp hn), rfl⟩
  · split at h
    · obtain ⟨⟨n, s₁⟩, hn, k₁⟩ := bind_eq_ok.mp h
      obtain ⟨rfl, rfl⟩ := Prod.mk.inj (Except.ok.inj k₁)
      exact ⟨.number (number_eq_ok.mp hn), rfl⟩
    · exact nomatch h
  · exact nomatch h

theorem colon_eq_ok {s r : List Char} : colon s = .ok r ↔ Space s (':' :: r) := by
  constructor
  · intro h
    unfold colon at h
    split at h
    · rename_i e
      obtain rfl := Except.ok.inj h
      exact space_of_skipSpace e
    · exact absurd h stopBefore_ne_ok
  · intro h
    rw [colon, h.skipSpace_eq (settled_mark (by decide))]
    rfl

section
variable {item : Reader Value} {levels : Nat}
  (hi : ∀ {s v r}, item s = .ok (v, r) →
    ∃ s₁, Space s s₁ ∧ Denotes s₁ v r ∧ v.nesting ≤ levels)

include hi

theorem moreItems_sound {n : Nat} {s r : List Char} {vs : List Value}
    (h : moreItems item n s = .ok (vs, r)) :
    MoreItems s vs r ∧ ∀ v ∈ vs, v.nesting ≤ levels := by
  induction n generalizing s vs with
  | zero => exact nomatch h
  | succ n ih =>
      rw [moreItems] at h
      split at h
      · rename_i e
        obtain ⟨rfl, rfl⟩ := Prod.mk.inj (Except.ok.inj h)
        exact ⟨.close (space_of_skipSpace e), by simp⟩
      · rename_i e
        split at h
        · exact nomatch h
        · obtain ⟨⟨v, s₁⟩, hv, k₁⟩ := bind_eq_ok.mp h
          obtain ⟨⟨us, s₂⟩, hu, k₂⟩ := bind_eq_ok.mp k₁
          obtain ⟨rfl, rfl⟩ := Prod.mk.inj (Except.ok.inj k₂)
          obtain ⟨s₃, g, hv, hn⟩ := hi hv
          obtain ⟨hu, hm⟩ := ih hu
          exact ⟨.next (space_of_skipSpace e) ((space_skipSpace _).trans g) hv hu,
            by simpa [hn] using hm⟩
      · exact absurd h stopBefore_ne_ok

theorem items_sound {size : Nat} {s r : List Char} {vs : List Value}
    (h : items size item s = .ok (vs, r)) : Items s vs r ∧ ∀ v ∈ vs, v.nesting ≤ levels := by
  unfold items at h
  split at h
  · exact nomatch h
  · rename_i e
    obtain ⟨rfl, rfl⟩ := Prod.mk.inj (Except.ok.inj h)
    exact ⟨.close (space_of_skipSpace e), by simp⟩
  · obtain ⟨⟨v, s₁⟩, hv, k₁⟩ := bind_eq_ok.mp h
    obtain ⟨⟨us, s₂⟩, hu, k₂⟩ := bind_eq_ok.mp k₁
    obtain ⟨rfl, rfl⟩ := Prod.mk.inj (Except.ok.inj k₂)
    obtain ⟨s₃, g, hv, hn⟩ := hi hv
    obtain ⟨hu, hm⟩ := moreItems_sound hi hu
    exact ⟨.first ((space_skipSpace _).trans g) hv hu, by simpa [hn] using hm⟩

theorem field_sound {size : Nat} {seen : List String} {s r : List Char} {f : String × Value}
    (h : field size item seen s = .ok (f, r)) :
    Field ('"' :: s) f r ∧ f.2.nesting ≤ levels ∧ f.1 ∉ seen := by
  obtain ⟨⟨k, s₁⟩, hk, k₁⟩ := bind_eq_ok.mp h
  dsimp only at k₁
  split at k₁
  · unfold repeated at k₁
    split at k₁ <;> exact nomatch k₁
  · rename_i hs
    obtain ⟨s₂, hc, k₂⟩ := bind_eq_ok.mp k₁
    obtain ⟨⟨v, s₃⟩, hv, k₃⟩ := bind_eq_ok.mp k₂
    obtain ⟨rfl, rfl⟩ := Prod.mk.inj (Except.ok.inj k₃)
    obtain ⟨s₄, g, hv, hn⟩ := hi hv
    exact ⟨.mk (quoted_sound hk) (colon_eq_ok.mp hc) g hv, hn, hs⟩

theorem moreFields_sound {size n : Nat} {seen : List String} {s r : List Char}
    {fs : List (String × Value)} (h : moreFields size item n seen s = .ok (fs, r)) :
    MoreFields s fs r ∧ (∀ f ∈ fs, f.2.nesting ≤ levels) ∧ Value.Unseen seen fs := by
  induction n generalizing s seen fs with
  | zero => exact nomatch h
  | succ n ih =>
      rw [moreFields] at h
      split at h
      · rename_i e
        obtain ⟨rfl, rfl⟩ := Prod.mk.inj (Except.ok.inj h)
        exact ⟨.close (space_of_skipSpace e), by simp, Value.unseen_nil⟩
      · rename_i e
        split at h
        · rename_i e'
          obtain ⟨⟨f, s₁⟩, hf, k₁⟩ := bind_eq_ok.mp h
          obtain ⟨⟨gs, s₂⟩, hg, k₂⟩ := bind_eq_ok.mp k₁
          obtain ⟨rfl, rfl⟩ := Prod.mk.inj (Except.ok.inj k₂)
          obtain ⟨hf, hn, hs⟩ := field_sound hi hf
          obtain ⟨hg, hm, hs'⟩ := ih hg
          exact ⟨.next (space_of_skipSpace e) (space_of_skipSpace e') hf hg,
            List.forall_mem_cons.mpr ⟨hn, hm⟩, Value.unseen_cons.mpr ⟨hs, hs'⟩⟩
        · exact nomatch h
        · exact absurd h stopBefore_ne_ok
      · exact absurd h stopBefore_ne_ok

theorem fields_sound {size : Nat} {s r : List Char} {fs : List (String × Value)}
    (h : fields size item s = .ok (fs, r)) :
    Fields s fs r ∧ (∀ f ∈ fs, f.2.nesting ≤ levels) ∧ Value.Unseen [] fs := by
  unfold fields at h
  split at h
  · rename_i e
    obtain ⟨rfl, rfl⟩ := Prod.mk.inj (Except.ok.inj h)
    exact ⟨.close (space_of_skipSpace e), by simp, Value.unseen_nil⟩
  · rename_i e
    obtain ⟨⟨f, s₁⟩, hf, k₁⟩ := bind_eq_ok.mp h
    obtain ⟨⟨gs, s₂⟩, hg, k₂⟩ := bind_eq_ok.mp k₁
    obtain ⟨rfl, rfl⟩ := Prod.mk.inj (Except.ok.inj k₂)
    obtain ⟨hf, hn, hs⟩ := field_sound hi hf
    obtain ⟨hg, hm, hs'⟩ := moreFields_sound hi hg
    exact ⟨.first (space_of_skipSpace e) hf hg, List.forall_mem_cons.mpr ⟨hn, hm⟩,
      Value.unseen_cons.mpr ⟨hs, hs'⟩⟩
  · exact absurd h stopBefore_ne_ok

end

theorem value_sound {size levels : Nat} {s r : List Char} {v : Value}
    (h : value size levels s = .ok (v, r)) :
    ∃ s₁, Space s s₁ ∧ Denotes s₁ v r ∧ v.nesting ≤ levels := by
  induction levels generalizing s v r with
  | zero =>
      rw [value] at h
      split at h
      · exact nomatch h
      · exact nomatch h
      · obtain ⟨hv, hn⟩ := scalar_sound h
        exact ⟨_, space_skipSpace s, hv, by omega⟩
  | succ levels ih =>
      rw [value] at h
      split at h
      · rename_i e
        obtain ⟨⟨vs, s₁⟩, hv, k₁⟩ := bind_eq_ok.mp h
        obtain ⟨rfl, rfl⟩ := Prod.mk.inj (Except.ok.inj k₁)
        obtain ⟨hv, hn⟩ := items_sound ih hv
        exact ⟨_, space_of_skipSpace e, .sequence hv, Value.nesting_sequence_le.mpr ⟨_, rfl, hn⟩⟩
      · rename_i e
        obtain ⟨⟨fs, s₁⟩, hf, k₁⟩ := bind_eq_ok.mp h
        obtain ⟨rfl, rfl⟩ := Prod.mk.inj (Except.ok.inj k₁)
        obtain ⟨hf, hn, hd⟩ := fields_sound ih hf
        exact ⟨_, space_of_skipSpace e, .record hf (Value.unseen_empty.mp hd),
          Value.nesting_record_le.mpr ⟨_, rfl, hn⟩⟩
      · obtain ⟨hv, hn⟩ := scalar_sound h
        exact ⟨_, space_skipSpace s, hv, by omega⟩

/-! ### What is in the grammar is read -/

mutual

theorem Denotes.length_lt : {s r : List Char} → {v : Value} → Denotes s v r →
    r.length < s.length
  | _, _, _, .null => by rw [List.length_append]; exact Nat.lt_add_of_pos_left (by decide)
  | _, _, _, .true => by rw [List.length_append]; exact Nat.lt_add_of_pos_left (by decide)
  | _, _, _, .false => by rw [List.length_append]; exact Nat.lt_add_of_pos_left (by decide)
  | _, _, _, .number h => h.length_lt
  | _, _, _, .negative h => by have := h.length_lt; rw [List.length_cons]; omega
  | _, _, _, .string h => h.length_lt
  | _, _, _, .sequence h => by have := h.length_lt; rw [List.length_cons]; omega
  | _, _, _, .record h _ => by have := h.length_lt; rw [List.length_cons]; omega

theorem Items.length_lt : {s r : List Char} → {vs : List Value} → Items s vs r →
    r.length < s.length
  | _, _, _, .close g => g.length_le
  | _, _, _, .first g h t => by
      have := g.length_le; have := h.length_lt; have := t.length_lt
      omega

theorem MoreItems.length_lt : {s r : List Char} → {vs : List Value} → MoreItems s vs r →
    r.length < s.length
  | _, _, _, .close g => g.length_le
  | _, _, _, .next g₁ g₂ h t => by
      have := g₁.length_le; have := g₂.length_le; have := h.length_lt; have := t.length_lt
      rw [List.length_cons] at *; omega

theorem Field.length_lt : {s r : List Char} → {f : String × Value} → Field s f r →
    r.length < s.length
  | _, _, _, .mk hk g₁ g₂ h => by
      have := hk.length_lt; have := g₁.length_le; have := g₂.length_le; have := h.length_lt
      rw [List.length_cons] at *; omega

theorem Fields.length_lt : {s r : List Char} → {fs : List (String × Value)} → Fields s fs r →
    r.length < s.length
  | _, _, _, .close g => g.length_le
  | _, _, _, .first g h t => by
      have := g.length_le; have := h.length_lt; have := t.length_lt
      omega

theorem MoreFields.length_lt : {s r : List Char} → {fs : List (String × Value)} →
    MoreFields s fs r → r.length < s.length
  | _, _, _, .close g => g.length_le
  | _, _, _, .next g₁ g₂ h t => by
      have := g₁.length_le; have := g₂.length_le; have := h.length_lt; have := t.length_lt
      rw [List.length_cons] at *; omega

end

theorem not_isSpace_of_isDigit {c : Char} (h : c.isDigit) : ¬ isSpace c := by
  intro hs
  simp only [isSpace, Bool.or_eq_true, beq_iff_eq] at hs
  rcases hs with ((rfl | rfl) | rfl) | rfl <;> exact absurd h (by decide)

/-- A text whose first character is one that a value may begin with. -/
def Opens (s : List Char) : Prop :=
  ∃ c t, s = c :: t ∧ (c.isDigit ∨ c ∈ ['"', '[', '{', '-', 'n', 't', 'f'])

theorem opens_mark {c : Char} {t : List Char} (hc : c ∈ ['"', '[', '{', '-', 'n', 't', 'f']) :
    Opens (c :: t) :=
  ⟨c, t, rfl, .inr hc⟩

theorem Opens.settled {s : List Char} (h : Opens s) : Settled s := by
  obtain ⟨c, t, rfl, hc | hc⟩ := h
  · exact settled_cons.mpr (not_isSpace_of_isDigit hc)
  · exact settled_cons.mpr (not_of_all (by decide) hc)

theorem Opens.ne_close {s t : List Char} (h : Opens s) : s ≠ ']' :: t := by
  obtain ⟨c, u, rfl, hc⟩ := h
  rintro e
  rw [(List.cons.inj e).1] at hc
  exact absurd hc (by decide)

theorem Opens.ne_nil {s : List Char} (h : Opens s) : s ≠ [] := by
  obtain ⟨c, u, rfl, -⟩ := h
  exact List.cons_ne_nil c u

theorem Denotes.opens {s r : List Char} {v : Value} (h : Denotes s v r) : Opens s := by
  cases h with
  | null => exact opens_mark (by decide)
  | true => exact opens_mark (by decide)
  | false => exact opens_mark (by decide)
  | number h =>
      obtain ⟨c, t, rfl, hc⟩ := h.eq_cons
      exact ⟨c, t, rfl, .inl hc⟩
  | negative => exact opens_mark (by decide)
  | string h =>
      obtain ⟨t, rfl⟩ := h.eq_cons
      exact opens_mark (by decide)
  | sequence => exact opens_mark (by decide)
  | record => exact opens_mark (by decide)

theorem Field.eq_cons {s r : List Char} {f : String × Value} (h : Field s f r) :
    ∃ t, s = '"' :: t := by
  obtain ⟨hk, -, -, -⟩ := h
  exact hk.eq_cons

/-- Blanks in front of a value are skipped. -/
theorem value_space {size levels : Nat} {s s₁ : List Char} (g : Space s s₁) (h : Settled s₁) :
    value size levels s = value size levels s₁ := by
  cases levels with
  | zero => rw [value, value, g.skipSpace_eq h, (Space.refl s₁).skipSpace_eq h]
  | succ levels => rw [value, value, g.skipSpace_eq h, (Space.refl s₁).skipSpace_eq h]

theorem value_scalar {size levels : Nat} {c : Char} {s : List Char}
    (hc : c.isDigit ∨ c ∈ ['"', '-', 'n', 't', 'f']) :
    value size levels (c :: s) = scalar size (c :: s) := by
  have hs : Settled (c :: s) :=
    settled_cons.mpr (hc.elim not_isSpace_of_isDigit (not_of_all (by decide)))
  have h₁ : c ≠ '[' := by rintro rfl; exact absurd hc (by decide)
  have h₂ : c ≠ '{' := by rintro rfl; exact absurd hc (by decide)
  cases levels with
  | zero =>
      rw [value, (Space.refl _).skipSpace_eq hs]
      split
      · exact absurd (List.cons.inj ‹_›).1 h₁
      · exact absurd (List.cons.inj ‹_›).1 h₂
      · rfl
  | succ levels =>
      rw [value, (Space.refl _).skipSpace_eq hs]
      split
      · exact absurd (List.cons.inj ‹_›).1 h₁
      · exact absurd (List.cons.inj ‹_›).1 h₂
      · rfl

theorem scalar_digit {size : Nat} {c : Char} {s : List Char} (hc : c.isDigit) :
    scalar size (c :: s) = (number false (c :: s) >>= fun (n, s) => .ok (.number n, s)) := by
  have ne : ∀ d ∈ ['n', 't', 'f', '"', '-'], c ≠ d := by
    rintro d hd rfl
    exact not_of_all (by decide) hd hc
  unfold scalar
  split
  · exact absurd (List.cons.inj ‹_›).1 (ne _ (by decide))
  · exact absurd (List.cons.inj ‹_›).1 (ne _ (by decide))
  · exact absurd (List.cons.inj ‹_›).1 (ne _ (by decide))
  · exact absurd (List.cons.inj ‹_›).1 (ne _ (by decide))
  · exact absurd (List.cons.inj ‹_›).1 (ne _ (by decide))
  · rename_i e
    obtain ⟨rfl, rfl⟩ := List.cons.inj e
    rw [if_pos hc]
  · rename_i e; exact absurd e (List.cons_ne_nil _ _)

/-- Reading the items from a place where one begins. -/
theorem items_of_ne {item : Reader Value} {size : Nat} {s s₁ : List Char} (g : skipSpace s = s₁)
    (h₀ : s₁ ≠ []) (h : ∀ t, s₁ ≠ ']' :: t) :
    items size item s = (item s₁ >>= fun (v, s) => moreItems item size s >>= fun (vs, s) =>
      .ok (v :: vs, s)) := by
  rw [items, g]
  split
  · exact absurd rfl h₀
  · exact absurd rfl (h _)
  · rfl

/-- Reading more items from a place where another one begins. -/
theorem moreItems_of_ne {item : Reader Value} {n : Nat} {s s₁ s₂ : List Char}
    (g₁ : skipSpace s = ',' :: s₁) (g₂ : skipSpace s₁ = s₂) (h : ∀ t, s₂ ≠ ']' :: t) :
    moreItems item (n + 1) s = (item s₂ >>= fun (v, s) => moreItems item n s >>= fun (vs, s) =>
      .ok (v :: vs, s)) := by
  rw [moreItems, g₁]
  simp only [g₂]

theorem field_eq {item : Reader Value} {size : Nat} {seen : List String} {k : String} {v : Value}
    {s s₁ s₂ r : List Char} (hk : quoted size s = .ok (k, s₁)) (hs : k ∉ seen)
    (hc : colon s₁ = .ok s₂) (hv : item s₂ = .ok (v, r)) :
    field size item seen s = .ok ((k, v), r) := by
  simp only [field, hk, ok_bind, if_neg hs, hc, hv]

mutual

/-- A value of the grammar is read, with as many levels as it has and counts above the length of
the text. -/
theorem Denotes.value_eq : {s r : List Char} → {v : Value} → Denotes s v r →
    ∀ {size levels : Nat}, s.length < size → v.nesting ≤ levels →
      value size levels s = .ok (v, r)
  | _, _, _, .null, size, levels, _, _ => value_scalar (by decide)
  | _, _, _, .true, size, levels, _, _ => value_scalar (by decide)
  | _, _, _, .false, size, levels, _, _ => value_scalar (by decide)
  | _, _, _, .number h, size, levels, _, _ => by
      obtain ⟨c, t, rfl, hc⟩ := h.eq_cons
      rw [value_scalar (.inl hc), scalar_digit hc, number_eq_ok.mpr h]
      rfl
  | _, _, _, .negative h, size, levels, _, _ => by
      rw [value_scalar (by decide), scalar, number_eq_ok.mpr h]
      rfl
  | _, _, _, .string h, size, levels, hs, _ => by
      obtain ⟨t, rfl⟩ := h.eq_cons
      rw [List.length_cons] at hs
      rw [value_scalar (by decide), scalar, quoted_complete h (by omega)]
      rfl
  | _, _, _, .sequence h, size, levels, hs, hn => by
      obtain ⟨levels, rfl, hv⟩ := Value.nesting_sequence_le.mp hn
      rw [List.length_cons] at hs
      rw [value, (Space.refl _).skipSpace_eq (settled_mark (by decide))]
      have e : items size (fun s => value size levels s) _ = _ := h.items_eq (by omega) hv
      simp only [e, ok_bind]
  | _, _, _, .record h hd, size, levels, hs, hn => by
      obtain ⟨levels, rfl, hf⟩ := Value.nesting_record_le.mp hn
      rw [List.length_cons] at hs
      rw [value, (Space.refl _).skipSpace_eq (settled_mark (by decide))]
      have e : fields size (fun s => value size levels s) _ = _ :=
        h.fields_eq (by omega) hf (Value.unseen_empty.mpr hd)
      simp only [e, ok_bind]

theorem Items.items_eq : {s r : List Char} → {vs : List Value} → Items s vs r →
    ∀ {size levels : Nat}, s.length < size → (∀ v ∈ vs, v.nesting ≤ levels) →
      items size (fun s => value size levels s) s = .ok (vs, r)
  | _, _, _, .close g, size, levels, _, _ => by
      rw [items, g.skipSpace_eq (settled_mark (by decide))]
      rfl
  | _, _, _, .first g h t, size, levels, hs, hn => by
      have := g.length_le; have := h.length_lt
      rw [List.forall_mem_cons] at hn
      rw [items_of_ne (g.skipSpace_eq h.opens.settled) h.opens.ne_nil fun t => h.opens.ne_close,
        h.value_eq (by omega) hn.1, ok_bind]
      dsimp only
      rw [t.moreItems_eq (by omega) (by omega) hn.2]
      rfl

theorem MoreItems.moreItems_eq : {s r : List Char} → {vs : List Value} → MoreItems s vs r →
    ∀ {size levels n : Nat}, s.length < size → s.length < n → (∀ v ∈ vs, v.nesting ≤ levels) →
      moreItems (fun s => value size levels s) n s = .ok (vs, r)
  | _, _, _, .close g, size, levels, n + 1, _, _, _ => by
      rw [moreItems, g.skipSpace_eq (settled_mark (by decide))]
      rfl
  | _, _, _, .next g₁ g₂ h t, size, levels, n + 1, hs, hm, hn => by
      have := g₁.length_le; have := g₂.length_le; have := h.length_lt
      rw [List.length_cons] at *
      rw [List.forall_mem_cons] at hn
      rw [moreItems_of_ne (g₁.skipSpace_eq (settled_mark (by decide)))
        (g₂.skipSpace_eq h.opens.settled) fun t => h.opens.ne_close,
        h.value_eq (by omega) hn.1, ok_bind]
      dsimp only
      rw [t.moreItems_eq (by omega) (by omega) hn.2]
      rfl

theorem Field.field_eq : {s r : List Char} → {f : String × Value} → Field s f r →
    ∀ (size levels : Nat) (seen : List String), s.length < size → f.2.nesting ≤ levels →
      f.1 ∉ seen → ∃ t, s = '"' :: t ∧
        field size (fun s => value size levels s) seen t = .ok (f, r)
  | _, _, _, .mk hk g₁ g₂ h, size, levels, seen, hs, hn, hf => by
      obtain ⟨t, rfl⟩ := hk.eq_cons
      have := hk.length_lt; have := g₁.length_le; have := g₂.length_le
      simp only [List.length_cons] at *
      refine ⟨t, rfl, Json.field_eq (quoted_complete hk (by omega)) hf (colon_eq_ok.mpr g₁) ?_⟩
      rw [value_space g₂ h.opens.settled, h.value_eq (by omega) hn]

theorem Fields.fields_eq : {s r : List Char} → {fs : List (String × Value)} → Fields s fs r →
    ∀ {size levels : Nat}, s.length < size → (∀ f ∈ fs, f.2.nesting ≤ levels) →
      Value.Unseen [] fs → fields size (fun s => value size levels s) s = .ok (fs, r)
  | _, _, _, .close g, size, levels, _, _, _ => by
      rw [fields, g.skipSpace_eq (settled_mark (by decide))]
      rfl
  | _, _, _, .first g h t, size, levels, hs, hn, hd => by
      have := g.length_le; have := h.length_lt
      rw [List.forall_mem_cons] at hn
      rw [Value.unseen_cons] at hd
      obtain ⟨u, rfl, hf⟩ := h.field_eq size levels [] (by omega) hn.1 hd.1
      rw [fields, g.skipSpace_eq (settled_mark (by decide))]
      simp only [hf, ok_bind]
      rw [t.moreFields_eq (by omega) (by omega) hn.2 hd.2]
      rfl

theorem MoreFields.moreFields_eq : {s r : List Char} → {fs : List (String × Value)} →
    MoreFields s fs r → ∀ {size levels n : Nat} {seen : List String}, s.length < size →
      s.length < n → (∀ f ∈ fs, f.2.nesting ≤ levels) → Value.Unseen seen fs →
      moreFields size (fun s => value size levels s) n seen s = .ok (fs, r)
  | _, _, _, .close g, size, levels, n + 1, seen, _, _, _, _ => by
      rw [moreFields, g.skipSpace_eq (settled_mark (by decide))]
      rfl
  | _, _, _, .next g₁ g₂ h t, size, levels, n + 1, seen, hs, hm, hn, hd => by
      have := g₁.length_le; have := g₂.length_le; have := h.length_lt
      rw [List.forall_mem_cons] at hn
      rw [Value.unseen_cons] at hd
      obtain ⟨u, rfl, hf⟩ := h.field_eq size levels seen
        (by simp only [List.length_cons] at *; omega) hn.1 hd.1
      rw [moreFields, g₁.skipSpace_eq (settled_mark (by decide))]
      simp only [g₂.skipSpace_eq (settled_mark (by decide)), hf, ok_bind]
      simp only [List.length_cons] at *
      rw [t.moreFields_eq (by omega) (by omega) hn.2 hd.2]
      rfl

end

/-- A text begins with one value at most. -/
theorem Denotes.unique {s r r' : List Char} {v v' : Value} (h : Denotes s v r)
    (h' : Denotes s v' r') : v = v' ∧ r = r' := by
  have e := h.value_eq (Nat.lt_succ_self _) (Nat.le_max_left v.nesting v'.nesting)
  have e' := h'.value_eq (Nat.lt_succ_self _) (Nat.le_max_right v.nesting v'.nesting)
  exact Prod.mk.inj (Except.ok.inj (e.symm.trans e'))

/-! ### Keys -/

mutual

theorem Denotes.distinct : {s r : List Char} → {v : Value} → Denotes s v r → v.Distinct
  | _, _, _, .null => .null
  | _, _, _, .true => .boolean _
  | _, _, _, .false => .boolean _
  | _, _, _, .number _ => .number _
  | _, _, _, .negative _ => .number _
  | _, _, _, .string _ => .string _
  | _, _, _, .sequence h => .sequence h.distinct
  | _, _, _, .record h hd => .record hd h.distinct

theorem Items.distinct : {s r : List Char} → {vs : List Value} → Items s vs r →
    ∀ v ∈ vs, v.Distinct
  | _, _, _, .close _ => by simp
  | _, _, _, .first _ h t => List.forall_mem_cons.mpr ⟨h.distinct, t.distinct⟩

theorem MoreItems.distinct : {s r : List Char} → {vs : List Value} → MoreItems s vs r →
    ∀ v ∈ vs, v.Distinct
  | _, _, _, .close _ => by simp
  | _, _, _, .next _ _ h t => List.forall_mem_cons.mpr ⟨h.distinct, t.distinct⟩

theorem Field.distinct : {s r : List Char} → {f : String × Value} → Field s f r → f.2.Distinct
  | _, _, _, .mk _ _ _ h => h.distinct

theorem Fields.distinct : {s r : List Char} → {fs : List (String × Value)} → Fields s fs r →
    ∀ f ∈ fs, f.2.Distinct
  | _, _, _, .close _ => by simp
  | _, _, _, .first _ h t => List.forall_mem_cons.mpr ⟨h.distinct, t.distinct⟩

theorem MoreFields.distinct : {s r : List Char} → {fs : List (String × Value)} →
    MoreFields s fs r → ∀ f ∈ fs, f.2.Distinct
  | _, _, _, .close _ => by simp
  | _, _, _, .next _ _ h t => List.forall_mem_cons.mpr ⟨h.distinct, t.distinct⟩

end

/-! ### Documents -/

theorem document_eq_ok {s : List Char} {v : Value} :
    document s = .ok v ↔ Document s v ∧ v.nesting ≤ maxNesting := by
  constructor
  · intro h
    obtain ⟨⟨u, s₂⟩, hu, k₁⟩ := bind_eq_ok.mp h
    obtain ⟨s₁, g, hd, hn⟩ := value_sound hu
    dsimp only at k₁
    split at k₁
    · rename_i e
      obtain rfl := Except.ok.inj k₁
      exact ⟨⟨s₁, s₂, g, hd, space_of_skipSpace e⟩, hn⟩
    · exact nomatch k₁
  · rintro ⟨⟨s₁, s₂, g, hd, g'⟩, hn⟩
    have := g.length_le
    refine bind_eq_ok.mpr ⟨(v, s₂), ?_, ?_⟩
    · rw [value_space g hd.opens.settled, hd.value_eq (by omega) hn]
    · simp only [g'.skipSpace_eq (by simp [Settled])]

theorem Document.distinct {s : List Char} {v : Value} (h : Document s v) : v.Distinct := by
  obtain ⟨s₁, s₂, -, hd, -⟩ := h
  exact hd.distinct

/-- A text is a document of one value at most. -/
theorem Document.unique {s : List Char} {v v' : Value} (h : Document s v) (h' : Document s v') :
    v = v' := by
  obtain ⟨s₁, s₂, g, hd, -⟩ := h
  obtain ⟨s₁', s₂', g', hd', -⟩ := h'
  obtain rfl := (g.skipSpace_eq hd.opens.settled).symm.trans (g'.skipSpace_eq hd'.opens.settled)
  exact (hd.unique hd').1

end Sidebar.Json
