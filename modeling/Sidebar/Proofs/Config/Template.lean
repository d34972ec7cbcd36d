import Mathlib.Data.List.Infix
import Sidebar.Config.Template
import Sidebar.Proofs.Text.Step

/-!
# Config — reading a template

A text is spelled for the rules of references before it is read by them.  The spelling is seen
through once and for all: a `$` that opens a brace stays single, any other is doubled, and all
else stays as it is.  Plain text then reads as itself, whatever its `$`s, and what stands between
braces is read up to the first closing brace.

* `braced_open`, `braced_dollar`, `braced_cons`: the spelling, character by character.
* `scan_plain`, `scan_reference`: what is read of plain text and of a reference.
* `value_unclosed`: where nothing closes a brace, a text stands for itself.
* `expand_eq_value`: a text without an open brace needs no path of its own.
-/

namespace Sidebar

namespace Template

open Text

variable {s t : List Char} {c : Char}

/-! ### Spelling for the rules -/

theorem double_cons (h : c ≠ '$') : double (c :: s) = c :: double s := by
  rw [double, List.flatMap_cons, if_neg h]
  rfl

theorem double_dollar (s : List Char) : double ('$' :: s) = '$' :: '$' :: double s := rfl

theorem reopen_cons (h : c ≠ '$') : reopen (c :: s) = c :: reopen s :=
  reopen.eq_2 c s fun _ e _ => absurd e h

/-- Where two `$`s stand before anything but a brace, both stay. -/
theorem reopen_dollar (h : ∀ r, s ≠ '$' :: '{' :: r) : reopen ('$' :: s) = '$' :: reopen s :=
  reopen.eq_2 '$' s fun r _ e => absurd e (h r)

/-- No doubled text begins with a single `$`. -/
theorem double_ne_open (s r : List Char) : double s ≠ '$' :: '{' :: r := by
  cases s with
  | nil => exact nofun
  | cons c s =>
      intro e
      by_cases h : c = '$'
      · subst h
        rw [double_dollar] at e
        exact absurd (List.cons.inj (List.cons.inj e).2).1 (by decide)
      · rw [double_cons h] at e
        exact h (List.cons.inj e).1

/-- A `$` that opens a brace stays as it is. -/
theorem braced_open (s : List Char) : braced ('$' :: '{' :: s) = '$' :: '{' :: braced s := rfl

/-- Any other `$` is doubled. -/
theorem braced_dollar (h : s.head? ≠ some '{') : braced ('$' :: s) = '$' :: '$' :: braced s := by
  -- the second of the two `$`s opens no brace in the doubled text
  have apart : ∀ r, '$' :: double s ≠ '$' :: '{' :: r := by
    intro r e
    cases s with
    | nil => exact nomatch e
    | cons c s =>
        by_cases hc : c = '$'
        · subst hc
          exact absurd (List.cons.inj (List.cons.inj e).2).1 (by decide)
        · rw [double_cons hc] at e
          exact h (congrArg some (List.cons.inj (List.cons.inj e).2).1)
  rw [braced, double_dollar, reopen_dollar apart, reopen_dollar (double_ne_open s), braced]

/-- All else stays. -/
theorem braced_cons (h : c ≠ '$') : braced (c :: s) = c :: braced s := by
  rw [braced, double_cons h, reopen_cons h, braced]

/-- Induction along the spelling of a text. -/
theorem braced_induction {motive : List Char → Prop} (nil : motive [])
    (opening : ∀ s, motive s → motive ('$' :: '{' :: s))
    (dollar : ∀ s, s.head? ≠ some '{' → motive s → motive ('$' :: s))
    (cons : ∀ c s, c ≠ '$' → motive s → motive (c :: s)) : (s : List Char) → motive s
  | [] => nil
  | [c] =>
    if h : c = '$' then h ▸ dollar [] nofun nil else cons c [] h nil
  | c :: d :: s =>
    if h : c = '$' then
      if e : d = '{' then h ▸ e ▸ opening s (braced_induction nil opening dollar cons s)
      else h ▸ dollar (d :: s) (fun f => e (Option.some.inj f))
        (braced_induction nil opening dollar cons (d :: s))
    else cons c (d :: s) h (braced_induction nil opening dollar cons (d :: s))

/-- Texts are spelled on their own, unless one takes a brace from the next. -/
theorem braced_append (h : t.head? ≠ some '{') : braced (s ++ t) = braced s ++ braced t := by
  induction s using braced_induction with
  | nil => rfl
  | opening s ih => rw [List.cons_append, List.cons_append, braced_open, ih, braced_open]; rfl
  | dollar s hs ih =>
      have head : (s ++ t).head? ≠ some '{' := by
        cases s with
        | nil => exact h
        | cons c s => exact hs
      rw [List.cons_append, braced_dollar head, ih, braced_dollar hs]
      rfl
  | cons c s hc ih => rw [List.cons_append, braced_cons hc, ih, braced_cons hc]; rfl

/-- A text is spelled with its own characters. -/
theorem mem_of_mem_braced (h : c ∈ braced s) : c ∈ s := by
  induction s using braced_induction with
  | nil => exact h
  | opening s ih =>
      rw [braced_open, List.mem_cons, List.mem_cons] at h
      rcases h with rfl | rfl | h
      · exact .head _
      · exact .tail _ (.head _)
      · exact .tail _ (.tail _ (ih h))
  | dollar s hs ih =>
      rw [braced_dollar hs, List.mem_cons, List.mem_cons] at h
      rcases h with rfl | rfl | h
      · exact .head _
      · exact .head _
      · exact .tail _ (ih h)
  | cons d s hd ih =>
      rw [braced_cons hd, List.mem_cons] at h
      rcases h with rfl | h
      · exact .head _
      · exact .tail _ (ih h)

theorem braced_of_notMem (h : '$' ∉ s) : braced s = s := by
  induction s with
  | nil => rfl
  | cons c s ih =>
      rw [List.mem_cons, not_or] at h
      rw [braced_cons (Ne.symm h.1), ih h.2]

theorem length_le_braced (s : List Char) : s.length ≤ (braced s).length := by
  induction s using braced_induction with
  | nil => exact Nat.le_refl _
  | opening s ih => exact Nat.add_le_add_right ih 2
  | dollar s hs ih =>
      rw [braced_dollar hs]
      exact Nat.le_succ_of_le (Nat.succ_le_succ ih)
  | cons c s hc ih =>
      rw [braced_cons hc]
      exact Nat.succ_le_succ ih

/-- Each `$` of a text opens a brace. -/
def AllOpen (s : List Char) : Prop := ∀ v, '$' :: v <:+ s → v.head? = some '{'

theorem allOpen_cons (h : c ≠ '$') : AllOpen (c :: s) ↔ AllOpen s := by
  constructor
  · intro all v hv
    exact all v (List.suffix_cons_iff.mpr (.inr hv))
  · intro all v hv
    rcases List.suffix_cons_iff.mp hv with e | hv
    · exact absurd (List.cons.inj e).1.symm h
    · exact all v hv

theorem allOpen_dollar : AllOpen ('$' :: s) ↔ s.head? = some '{' ∧ AllOpen s := by
  constructor
  · intro all
    exact ⟨all s (List.suffix_refl _), fun v hv => all v (List.suffix_cons_iff.mpr (.inr hv))⟩
  · rintro ⟨head, all⟩ v hv
    rcases List.suffix_cons_iff.mp hv with e | hv
    · obtain rfl := (List.cons.inj e).2
      exact head
    · exact all v hv

/-- The spelling leaves exactly the texts alone in which each `$` opens a brace. -/
theorem braced_eq_self_iff : braced s = s ↔ AllOpen s := by
  induction s using braced_induction with
  | nil => exact ⟨fun _ v hv => absurd (List.suffix_nil.mp hv) nofun, fun _ => rfl⟩
  | opening s ih =>
      rw [braced_open, List.cons_inj_right, List.cons_inj_right, ih, allOpen_dollar,
        allOpen_cons (by decide)]
      exact ⟨fun h => ⟨rfl, h⟩, And.right⟩
  | dollar s hs ih =>
      rw [braced_dollar hs, List.cons_inj_right, allOpen_dollar]
      constructor
      · intro e
        have shorter : (braced s).length < s.length := congrArg List.length e ▸ Nat.lt_succ_self _
        exact absurd (length_le_braced s) (Nat.not_le.mpr shorter)
      · exact fun h => absurd h.1 hs
  | cons c s hc ih => rw [braced_cons hc, List.cons_inj_right, ih, allOpen_cons hc]

/-! ### Reading by the rules -/

theorem scan_cons (h : c ≠ '$') : scan .outside (c :: s) = .plain [c] :: scan .outside s :=
  scan.eq_2 c s h

/-- A text that opens no brace. -/
def IsPlain (s : List Char) : Prop := ¬ ['$', '{'] <:+: s

instance : DecidablePred IsPlain := fun s => inferInstanceAs (Decidable (¬ ['$', '{'] <:+: s))

theorem IsPlain.tail (h : IsPlain (c :: s)) : IsPlain s :=
  fun i => h (List.infix_cons i)

theorem IsPlain.head?_ne (h : IsPlain ('$' :: s)) : s.head? ≠ some '{' := by
  intro e
  obtain ⟨r, rfl⟩ := List.head?_eq_some_iff.mp e
  exact h ⟨[], r, rfl⟩

/-- Plain text is read character by character. -/
theorem scan_plain (h : IsPlain s) (t : List Char) :
    scan .outside (braced s ++ t) = s.map (fun c => .plain [c]) ++ scan .outside t := by
  induction s with
  | nil => rfl
  | cons c s ih =>
      by_cases hc : c = '$'
      · subst hc
        rw [braced_dollar h.head?_ne]
        exact congrArg (.plain ['$'] :: ·) (ih h.tail)
      · rw [braced_cons hc, List.cons_append, scan_cons hc, ih h.tail]
        rfl

theorem scan_inside {b : List Char} (h : '}' ∉ b) (body t : List Char) :
    scan (.inside body) (b ++ '}' :: t) = .reference (.ofBody (body ++ b)) :: scan .outside t := by
  induction b generalizing body with
  | nil => rw [List.append_nil]; rfl
  | cons c b ih =>
      rw [List.mem_cons, not_or] at h
      rw [List.cons_append, scan.eq_12 body c _ (Ne.symm h.1), ih h.2, List.append_assoc]
      rfl

/-- A reference is read up to the first closing brace. -/
theorem scan_reference {b : List Char} (h : '}' ∉ b) (t : List Char) :
    scan .outside ('$' :: '{' :: (b ++ '}' :: t)) = .reference (.ofBody b) :: scan .outside t := by
  have closed : '}' ∈ b ++ '}' :: t := List.mem_append_right b (.head t)
  rw [scan, scan, if_pos closed, scan_inside h, List.nil_append]

/-! ### Values -/

variable (lookup : String → Option String)

theorem value_plain_cons (s : List Char) (ps : Template) :
    value lookup (.plain s :: ps) = (value lookup ps).map (s ++ ·) := by
  rw [value, Segment.value, ok_bind]
  cases value lookup ps <;> rfl

theorem value_map_plain (s : List Char) (ps : Template) :
    value lookup (s.map (fun c => .plain [c]) ++ ps) = (value lookup ps).map (s ++ ·) := by
  induction s with
  | nil => cases h : value lookup ps <;> simp [Except.map, h]
  | cons c s ih =>
      rw [List.map_cons, List.cons_append, value_plain_cons, ih]
      cases value lookup ps <;> rfl

/-- Plain text stands for itself, wherever it stands. -/
theorem value_plain_append {s : List Char} (h : IsPlain s) (t : List Char) :
    value lookup (scan .outside (braced s ++ t)) =
      (value lookup (scan .outside t)).map (s ++ ·) := by
  rw [scan_plain h, value_map_plain]

/-- So does a text in which no brace is closed, whatever it opens. -/
theorem value_unclosed {s : List Char} (h : '}' ∉ s) : value lookup (read s) = .ok s := by
  rw [read]
  induction s using braced_induction with
  | nil => rfl
  | opening s ih =>
      -- nothing further on closes the brace either, so it is read as two characters
      have rest : '}' ∉ s := fun m => h (.tail _ (.tail _ m))
      have unclosed : '}' ∉ braced s := mt mem_of_mem_braced rest
      rw [braced_open, scan, scan, if_neg unclosed, value_plain_cons, ih rest]
      rfl
  | dollar s hs ih =>
      rw [braced_dollar hs, scan, scan, value_plain_cons, ih fun m => h (.tail _ m)]
      rfl
  | cons c s hc ih =>
      rw [braced_cons hc, scan_cons hc, value_plain_cons, ih fun m => h (.tail _ m)]
      rfl

theorem value_plain {s : List Char} (h : IsPlain s) : value lookup (read s) = .ok s := by
  have := value_plain_append lookup h []
  rw [List.append_nil] at this
  rw [read, this]
  exact congrArg Except.ok (List.append_nil s)

/-- A text without an open brace reads as itself, so that all texts may be read alike. -/
theorem expand_eq_value (s : String) :
    expand lookup s = (value lookup (read s.toList)).map String.ofList := by
  by_cases h : ['$', '{'] <:+: s.toList
  · rw [expand, if_pos (Config.occursIn_iff.mpr h)]
  · rw [expand, if_neg (mt Config.occursIn_iff.mp h), value_plain lookup h]
    exact congrArg Except.ok (String.ofList_toList).symm

end Template

end Sidebar
