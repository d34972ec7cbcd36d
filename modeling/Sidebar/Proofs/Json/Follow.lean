import Sidebar.Proofs.Json.Loose

/-!
# Json — what follows a phrase

A phrase ends where it ends by its own characters, but for a number, which ends where the next
character cannot go on with it.  So of the text that follows a phrase only the first character
matters.

* `Loose.follow`: another text that begins alike may follow a phrase.
-/

namespace Sidebar.Json

open Sidebar.Text

variable {s r r' : List Char}

theorem head?_append_congr (q : List Char) (h : r'.head? = r.head?) :
    (q ++ r').head? = (q ++ r).head? := by
  rw [List.head?_append, List.head?_append, h]

theorem Number.follow {negative : Bool} {n : Decimal} (h : Number negative s n r) :
    ∃ q, s = q ++ r ∧ ∀ r', r'.head? = r.head? → Number negative (q ++ r') n r' := by
  obtain ⟨text, hw, hf, hx, ends, held⟩ := h
  refine ⟨_, text, fun r' hr => .mk rfl hw hf hx ?_ held⟩
  rw [hr]
  exact ends

theorem Quoted.follow {k : String} (h : Quoted s k r) :
    ∃ q, s = q ++ r ∧ ∀ r', Quoted (q ++ r') k r' := by
  obtain ⟨t, rfl, spells⟩ := h
  exact ⟨'"' :: (t ++ ['"']), by simp, fun r' => ⟨t, by simp, spells⟩⟩

theorem Denotes.follow_scalar {v : Value} (h : Denotes s v r) (flat : v.nesting = 0) :
    ∃ q, s = q ++ r ∧ ∀ r', r'.head? = r.head? → Denotes (q ++ r') v r' := by
  cases h with
  | null => exact ⟨_, rfl, fun _ _ => .null⟩
  | true => exact ⟨_, rfl, fun _ _ => .true⟩
  | false => exact ⟨_, rfl, fun _ _ => .false⟩
  | number h =>
      obtain ⟨q, rfl, follow⟩ := h.follow
      exact ⟨q, rfl, fun r' hr => .number (follow r' hr)⟩
  | negative h =>
      obtain ⟨q, rfl, follow⟩ := h.follow
      exact ⟨'-' :: q, rfl, fun r' hr => .negative (follow r' hr)⟩
  | string h =>
      obtain ⟨q, rfl, follow⟩ := h.follow
      exact ⟨q, rfl, fun r' _ => .string (follow r')⟩
  | sequence => exact absurd flat (by simp [Value.nesting])
  | record => exact absurd flat (by simp [Value.nesting])

/-- Another text that begins alike may follow a phrase. -/
theorem Loose.follow {p : Phrase} (h : Loose s p r) :
    ∃ q, s = q ++ r ∧ ∀ r', r'.head? = r.head? → Loose (q ++ r') p r' := by
  induction h with
  | scalar h flat =>
      obtain ⟨q, e, follow⟩ := h.follow_scalar flat
      exact ⟨q, e, fun r' hr => .scalar (follow r' hr) flat⟩
  | sequence _ ih =>
      obtain ⟨q, rfl, follow⟩ := ih
      exact ⟨'[' :: q, rfl, fun r' hr => .sequence (follow r' hr)⟩
  | record _ ih =>
      obtain ⟨q, rfl, follow⟩ := ih
      exact ⟨'{' :: q, rfl, fun r' hr => .record (follow r' hr)⟩
  | noItem g =>
      obtain ⟨w, hw, rfl⟩ := g
      exact ⟨w ++ [']'], by simp, fun r' _ => .noItem ⟨w, hw, by simp⟩⟩
  | firstItem g _ _ ihv iht =>
      obtain ⟨w, hw, rfl⟩ := g
      obtain ⟨q₁, rfl, follow₁⟩ := ihv
      obtain ⟨q₂, rfl, follow₂⟩ := iht
      refine ⟨w ++ q₁ ++ q₂, by simp, fun r' hr => .firstItem ⟨w, hw, ?_⟩
        (follow₁ (q₂ ++ r') (head?_append_congr q₂ hr)) (follow₂ r' hr)⟩
      simp only [List.append_assoc]
  | lastItem g =>
      obtain ⟨w, hw, rfl⟩ := g
      exact ⟨w ++ [']'], by simp, fun r' _ => .lastItem ⟨w, hw, by simp⟩⟩
  | nextItem g₁ g₂ _ _ ihv iht =>
      obtain ⟨w₁, hw₁, rfl⟩ := g₁
      obtain ⟨w₂, hw₂, rfl⟩ := g₂
      obtain ⟨q₁, rfl, follow₁⟩ := ihv
      obtain ⟨q₂, rfl, follow₂⟩ := iht
      refine ⟨w₁ ++ ',' :: (w₂ ++ q₁ ++ q₂), by simp, fun r' hr => .nextItem ⟨w₁, hw₁, ?_⟩
        ⟨w₂, hw₂, rfl⟩ (follow₁ (q₂ ++ r') (head?_append_congr q₂ hr)) (follow₂ r' hr)⟩
      simp only [List.append_assoc, List.cons_append]
  | field hk g₁ g₂ _ ih =>
      obtain ⟨q, rfl, follow⟩ := ih
      obtain ⟨w₂, hw₂, rfl⟩ := g₂
      obtain ⟨w₁, hw₁, rfl⟩ := g₁
      obtain ⟨t, rfl, quoted⟩ := hk.follow
      refine ⟨t ++ (w₁ ++ ':' :: (w₂ ++ q)), by simp, fun r' hr => ?_⟩
      have key := quoted (w₁ ++ ':' :: (w₂ ++ (q ++ r')))
      simp only [List.append_assoc, List.cons_append]
      exact .field key ⟨w₁, hw₁, rfl⟩ ⟨w₂, hw₂, rfl⟩ (follow r' hr)
  | noField g =>
      obtain ⟨w, hw, rfl⟩ := g
      exact ⟨w ++ ['}'], by simp, fun r' _ => .noField ⟨w, hw, by simp⟩⟩
  | firstField g _ _ ihf iht =>
      obtain ⟨w, hw, rfl⟩ := g
      obtain ⟨q₁, rfl, follow₁⟩ := ihf
      obtain ⟨q₂, rfl, follow₂⟩ := iht
      refine ⟨w ++ q₁ ++ q₂, by simp, fun r' hr => .firstField ⟨w, hw, ?_⟩
        (follow₁ (q₂ ++ r') (head?_append_congr q₂ hr)) (follow₂ r' hr)⟩
      simp only [List.append_assoc]
  | lastField g =>
      obtain ⟨w, hw, rfl⟩ := g
      exact ⟨w ++ ['}'], by simp, fun r' _ => .lastField ⟨w, hw, by simp⟩⟩
  | nextField g₁ g₂ _ _ ihf iht =>
      obtain ⟨w₁, hw₁, rfl⟩ := g₁
      obtain ⟨w₂, hw₂, rfl⟩ := g₂
      obtain ⟨q₁, rfl, follow₁⟩ := ihf
      obtain ⟨q₂, rfl, follow₂⟩ := iht
      refine ⟨w₁ ++ ',' :: (w₂ ++ q₁ ++ q₂), by simp, fun r' hr => .nextField ⟨w₁, hw₁, ?_⟩
        ⟨w₂, hw₂, rfl⟩ (follow₁ (q₂ ++ r') (head?_append_congr q₂ hr)) (follow₂ r' hr)⟩
      simp only [List.append_assoc, List.cons_append]

theorem Denotes.follow {v : Value} (h : Denotes s v r) :
    ∃ q, s = q ++ r ∧ ∀ r', r'.head? = r.head? → Denotes (q ++ r') v r' := by
  obtain ⟨q, e, follow⟩ := h.loose.follow
  exact ⟨q, e, fun r' hr => denotes_iff.mpr ⟨follow r' hr, h.distinct⟩⟩

theorem Field.follow {f : String × Value} (h : Field s f r) :
    ∃ q, s = q ++ r ∧ ∀ r', r'.head? = r.head? → Field (q ++ r') f r' := by
  obtain ⟨q, e, follow⟩ := h.loose.follow
  exact ⟨q, e, fun r' hr => (follow r' hr).begins h.distinct⟩

end Sidebar.Json
