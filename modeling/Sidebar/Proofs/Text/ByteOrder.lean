/-!
# Text — the order of bytes

Texts are compared by code points.  The order of their bytes in UTF-8 is the same: a character with
the smaller code point has the smaller bytes, whatever follows either.

* `utf8_lt_iff`, `utf8_le_iff`: the bytes of a text come first exactly when the text does.
-/

namespace Sidebar.Text

/-- The bytes of a text in UTF-8. -/
def utf8 (s : String) : List UInt8 := s.toByteArray.data.toList

theorem utf8_eq_flatMap (s : String) : utf8 s = s.toList.flatMap String.utf8EncodeChar := by
  rw [utf8, ← String.utf8Encode_toList, List.utf8Encode]
  simp

/-- The bytes of the smaller character come first, whatever follows. -/
theorem encode_append_lt {c d : Char} (h : c < d) (s t : List UInt8) :
    String.utf8EncodeChar c ++ s < String.utf8EncodeChar d ++ t := by
  have h' : c.val.toNat < d.val.toNat := h
  have hd : d.val.toNat < 0x110000 := by
    have := d.valid
    simp only [UInt32.isValidChar, Nat.isValidChar] at this
    omega
  simp only [String.utf8EncodeChar]
  generalize c.val.toNat = m at h' ⊢
  generalize d.val.toNat = n at h' hd ⊢
  have byte : ∀ k < 256, (UInt8.ofNat k).toNat = k := fun k hk => UInt8.toNat_ofNat_of_lt' hk
  have digits : ∀ k, k / 4096 = k / 64 / 64 ∧ k / 262144 = k / 64 / 64 / 64 := by omega
  -- the first byte tells the lengths apart, and within one length the digits decide
  repeat' split
  all_goals
    simp (disch := omega) only [List.cons_append, List.nil_append, List.cons_lt_cons_iff,
      UInt8.lt_iff_toNat_lt, ← UInt8.toNat_inj, byte, digits]
    omega

theorem flatMap_encode_lt {s t : List Char} (h : s < t) :
    s.flatMap String.utf8EncodeChar < t.flatMap String.utf8EncodeChar := by
  induction h with
  | @nil d t =>
      have hd : 0 < (String.utf8EncodeChar d).length := by
        rw [String.length_utf8EncodeChar]
        exact d.utf8Size_pos
      obtain ⟨b, bs, e⟩ := List.exists_cons_of_length_pos hd
      simp [e]
  | rel h => exact encode_append_lt h _ _
  | cons h ih => exact List.append_left_lt ih

/-- **The order of texts is the order of their bytes.** -/
theorem utf8_lt_iff {s t : String} : utf8 s < utf8 t ↔ s < t := by
  rw [utf8_eq_flatMap, utf8_eq_flatMap]
  refine ⟨fun h => Decidable.byContradiction fun hs => ?_, flatMap_encode_lt⟩
  by_cases ht : t < s
  · exact List.lt_asymm h (flatMap_encode_lt ht)
  · obtain rfl : s = t := Std.Trichotomous.trichotomous (r := (· < ·)) s t hs ht
    exact List.lt_irrefl _ h

theorem utf8_le_iff {s t : String} : utf8 s ≤ utf8 t ↔ s ≤ t := by
  rw [← List.not_lt, utf8_lt_iff, String.not_lt]

end Sidebar.Text
