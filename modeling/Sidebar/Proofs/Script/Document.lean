import Sidebar.Proofs.Script.Value

/-!
# Script — the scripts that are read

`read_eq_ok_iff_document`: a script is read as a value exactly when the grammar derives that
value from the text, a byte order mark aside, and the value is not nested too deep.
-/

namespace Sidebar.Script

open Sidebar.Text

/-! ### Assignments -/

theorem assignment_of_not_isNameStart {s : List Char} (h : ∀ c ∈ s.head?, ¬ isNameStart c) :
    assignment s = .ok s := by
  cases s with
  | nil => rfl
  | cons c s => rw [assignment, if_neg (h c (by simp))]

/-- The rest of an assignment after the name. -/
theorem equals_eq_ok {s r : List Char} :
    (gap s >>= fun s => expect '=' s >>= gap) = .ok r ↔
      ∃ t, Gap s ('=' :: t) ∧ Gap t r ∧ Settled r := by
  constructor
  · intro h
    obtain ⟨s₁, g₁, k₁⟩ := bind_eq_ok.mp h
    obtain ⟨s₂, h₂, k₂⟩ := bind_eq_ok.mp k₁
    obtain rfl := expect_eq_ok.mp h₂
    exact ⟨s₂, (gap_eq_ok.mp g₁).1, gap_eq_ok.mp k₂⟩
  · rintro ⟨t, g₁, g₂⟩
    rw [gap_complete g₁ (settled_mark (by decide)), ok_bind, expect_eq_ok.mpr rfl, ok_bind,
      gap_eq_ok.mpr g₂]

theorem assignment_sound {s r : List Char} (h : assignment s = .ok r) : r = s ∨ Assignment s r := by
  cases s with
  | nil => exact .inl (Except.ok.inj h).symm
  | cons c s =>
      rw [assignment] at h
      split at h
      · rename_i hc
        right
        have hw := name_sound (s := s) hc
        dsimp only at h
        split at h
        · rename_i hd
          obtain ⟨s₁, g₁, k₁⟩ := bind_eq_ok.mp h
          obtain ⟨g₁, -⟩ := gap_eq_ok.mp g₁
          split at k₁
          · split at k₁
            · rename_i hx
              obtain ⟨t, g₂, g₃, -⟩ := equals_eq_ok.mp k₁
              exact .declared hw hd g₁ (name_sound hx) g₂ g₃
            · exact nomatch k₁
          · exact nomatch k₁
        · rename_i hd
          obtain ⟨t, g₁, g₂, -⟩ := equals_eq_ok.mp h
          exact .bare hw hd g₁ g₂
      · exact .inl (Except.ok.inj h).symm

theorem Assignment.assignment_eq {s r : List Char} (h : Assignment s r) (hr : Settled r) :
    assignment s = .ok r := by
  cases h with
  | declared hw d g₁ hx g₂ g₃ =>
      obtain ⟨c, t, rfl, hc⟩ := hw.eq_cons
      -- the gap behind a declarator ends where the second name begins
      have hs := gap_complete g₁ hx.settled
      have e := name_eq hx
      obtain ⟨c', t', rfl, hc'⟩ := hx.eq_cons
      rw [assignment, if_pos hc, name_eq hw]
      dsimp only
      rw [if_pos d, hs, ok_bind]
      dsimp only
      rw [if_pos hc', e]
      exact equals_eq_ok.mpr ⟨_, g₂, g₃, hr⟩
  | bare hw d g₁ g₂ =>
      obtain ⟨c, t, rfl, hc⟩ := hw.eq_cons
      rw [assignment, if_pos hc, name_eq hw]
      dsimp only
      rw [if_neg d]
      exact equals_eq_ok.mpr ⟨_, g₁, g₂, hr⟩

/-! ### The rest of a script -/

theorem ending_eq_ok {s : List Char} : ending s = .ok () ↔ Ending s := by
  constructor
  · intro h
    obtain ⟨s₁, g₁, k₁⟩ := bind_eq_ok.mp h
    obtain ⟨g₁, -⟩ := gap_eq_ok.mp g₁
    split at k₁
    · obtain ⟨s₂, g₂, k₂⟩ := bind_eq_ok.mp k₁
      obtain ⟨g₂, -⟩ := gap_eq_ok.mp g₂
      dsimp only at k₂
      split at k₂
      · exact .inr ⟨_, g₁, g₂⟩
      · exact nomatch k₂
    · obtain ⟨s₂, g₂, k₂⟩ := bind_eq_ok.mp k₁
      obtain rfl := Except.ok.inj g₂
      dsimp only at k₂
      split at k₂
      · exact .inl g₁
      · exact nomatch k₂
  · rintro (g | ⟨t, g₁, g₂⟩)
    · rw [ending, gap_complete g trivial]
      rfl
    · rw [ending, gap_complete g₁ (settled_mark (by decide)), ok_bind]
      simp only [gap_complete g₂ trivial]
      rfl

/-- A value begins no name, so it is taken for no assignment. -/
theorem Denotes.not_isNameStart {s r : List Char} {v : Value} (h : Denotes s v r) :
    ∀ c ∈ s.head?, ¬ isNameStart c := by
  obtain ⟨c, t, rfl, hc⟩ := h.eq_cons
  intro d hd
  obtain rfl : c = d := by simpa using hd
  exact not_of_all (by decide) hc

theorem Assignment.settled {s r : List Char} (h : Assignment s r) : Settled s := by
  cases h with
  | declared hw => exact hw.settled
  | bare hw => exact hw.settled

theorem Assignment.length_le {s r : List Char} (h : Assignment s r) : r.length ≤ s.length := by
  cases h with
  | declared hw _ g₁ hx g₂ g₃ =>
      have := hw.length_lt; have := g₁.length_le; have := hx.length_lt; have := g₂.length_le
      have := g₃.length_le
      simp only [List.length_cons] at *; omega
  | bare hw _ g₁ g₂ =>
      have := hw.length_lt; have := g₁.length_le; have := g₂.length_le
      simp only [List.length_cons] at *; omega

/-- The steps that reading a script of the grammar takes. -/
theorem Document.steps {s : List Char} {v : Value} (h : Document s v) : ∃ s₁ s₂ s₃,
    gap s = .ok s₁ ∧ assignment s₁ = .ok s₂ ∧ s₂.length ≤ s.length ∧ Denotes s₂ v s₃ ∧
      ending s₃ = .ok () := by
  obtain ⟨s₁, s₂, s₃, g, a, hd, e⟩ := h
  have hg := g.length_le
  rcases a with rfl | a
  · exact ⟨_, _, s₃, gap_complete g hd.settled, assignment_of_not_isNameStart hd.not_isNameStart,
      hg, hd, ending_eq_ok.mpr e⟩
  · exact ⟨_, _, s₃, gap_complete g a.settled, a.assignment_eq hd.settled,
      Nat.le_trans a.length_le hg, hd, ending_eq_ok.mpr e⟩

theorem document_eq_ok {s : List Char} {v : Value} :
    document s = .ok v ↔ Document s v ∧ v.nesting ≤ maxNesting := by
  constructor
  · intro h
    obtain ⟨s₁, g, k₁⟩ := bind_eq_ok.mp h
    obtain ⟨s₂, a, k₂⟩ := bind_eq_ok.mp k₁
    obtain ⟨⟨u, s₃⟩, hu, k₃⟩ := bind_eq_ok.mp k₂
    obtain ⟨⟨⟩, e, k₄⟩ := bind_eq_ok.mp k₃
    obtain rfl := Except.ok.inj k₄
    obtain ⟨hd, hn⟩ := value_sound hu
    exact ⟨⟨s₁, s₂, s₃, (gap_eq_ok.mp g).1, assignment_sound a, hd, ending_eq_ok.mp e⟩, hn⟩
  · rintro ⟨h, hn⟩
    obtain ⟨s₁, s₂, s₃, g, a, hl, hd, e⟩ := h.steps
    refine bind_eq_ok.mpr ⟨s₁, g, bind_eq_ok.mpr ⟨s₂, a, ?_⟩⟩
    refine bind_eq_ok.mpr ⟨(v, s₃), hd.value_eq (by omega) hn, ?_⟩
    exact bind_eq_ok.mpr ⟨(), e, rfl⟩

theorem Document.plain {s : List Char} {v : Value} (h : Document s v) : v.Plain := by
  obtain ⟨s₁, s₂, s₃, -, -, hd, -⟩ := h
  exact hd.plain

/-- A text is a script of one value at most. -/
theorem Document.unique {s : List Char} {v v' : Value} (h : Document s v) (h' : Document s v') :
    v = v' := by
  obtain ⟨s₁, s₂, s₃, g, a, -, hd, -⟩ := h.steps
  obtain ⟨s₁', s₂', s₃', g', a', -, hd', -⟩ := h'.steps
  obtain rfl := Except.ok.inj (g.symm.trans g')
  obtain rfl := Except.ok.inj (a.symm.trans a')
  exact (hd.unique hd').1

/-- **The scripts that are read**, and what as: exactly those of the grammar, up to the deepest
nesting allowed. -/
theorem read_eq_ok_iff_document (source : String) (v : Value) :
    read source = .ok v ↔ Document (dropMark source.toList) v ∧ v.nesting ≤ maxNesting := by
  unfold read
  rw [mapError_ok_iff, document_eq_ok]

end Sidebar.Script
