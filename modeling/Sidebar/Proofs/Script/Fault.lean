import Mathlib.Data.List.Infix
import Sidebar.Proofs.Script.Document
import Sidebar.Proofs.Script.Place

/-!
# Script — where reading stops

Reading only moves on: what a step leaves is an end of the text, and so is what a fault leaves.
So the position of a fault is the one behind the part that was passed.  Unless it is in a string, a
fault stands in front of what is wrong: a character that it has found, or that is not the expected
one, a comment that does not end, or a repeated key of a record.

* `Cause.Explains`: what a cause says of the text that it stands in front of.
* `Fault.In`: a fault stands in a text.
* `Ends`: a step of reading leaves an end of the text, or a fault stands in it.
* `value_ends`, `document_ends`: every step does so.
* `read_stops_in`: the position of a fault, and what is found there.
-/

namespace Sidebar.Script

open Sidebar.Text

/-! ### Faults in a text -/

/-- The cause is to be seen in what is left of the text: what was expected does not stand there,
what is said to be found does, a comment begins there that is not closed, or a key stands there that
has come before.  A fault in a string stands behind what is wrong, and nothing is to be seen. -/
def Cause.Explains (text rest : List Char) : Cause → Prop
  | .variableNameMissing => ∀ c ∈ rest.head?, ¬ isNameStart c
  | .missing c           => rest.head? ≠ some c
  | .trailing c          => rest.head? = some c
  | .unexpected c        => rest.head? = some c
  | .endOfInput          => rest = []
  | .keyMissing c        => rest.head? = some c
  | .duplicateKey k      => Repeats text k rest
  | .fieldUnended        => ∀ c ∈ rest.head?, c ∉ [',', '}']
  | .itemUnended         => ∀ c ∈ rest.head?, c ∉ [',', ']']
  | .unterminatedComment => Unclosed rest
  | .tooDeep             => ∃ c ∈ rest.head?, c ∈ ['{', '[']
  | _                    => True

/-- A fault leaves an end of the text, in which its cause is to be seen. -/
structure Fault.In (text : List Char) (f : Fault) : Prop where
  rest : f.rest <:+ text
  explains : f.cause.Explains text f.rest

/-- A step leaves an end of the text, or a fault stands in it. -/
inductive Ends {α : Type} (left : α → List Char) (text : List Char) : Except Fault α → Prop where
  | ok {a : α} (h : left a <:+ text) : Ends left text (.ok a)
  | error {f : Fault} (h : f.In text) : Ends left text (.error f)

variable {α β : Type} {text s : List Char}

/-- The position of a fault is the one behind the text in front of it. -/
theorem Fault.In.locate {f : Fault} (h : f.In text) :
    ∃ p, text = p ++ f.rest ∧ f.locate text = ⟨f.cause, Position.after p⟩ := by
  obtain ⟨p, e⟩ := h.rest
  refine ⟨p, e.symm, ?_⟩
  rw [Fault.locate, ← e, List.length_append, Nat.add_sub_cancel, List.take_left]

section
variable {left : α → List Char} {left' : β → List Char} {x : Except Fault α}

/-- A step and what is made of its result, which is known to come from that step. -/
theorem Ends.bind_of_eq {f : α → Except Fault β} (h : Ends left text x)
    (k : ∀ a, x = .ok a → left a <:+ text → Ends left' text (f a)) :
    Ends left' text (x >>= f) := by
  cases h with
  | ok h => exact k _ rfl h
  | error h => exact .error h

/-- A step and what is made of its result. -/
theorem Ends.bind {f : α → Except Fault β} (h : Ends left text x)
    (k : ∀ a, left a <:+ text → Ends left' text (f a)) : Ends left' text (x >>= f) :=
  h.bind_of_eq fun a _ => k a

/-- A step that stops at a fault whose cause is to be seen. -/
theorem Ends.stop {cause : Cause} (hc : cause.Explains text s) (h : s <:+ text) :
    Ends left text (.error ⟨cause, s⟩) :=
  .error ⟨h, hc⟩

theorem Ends.of_error {f : Fault} (h : Ends left text (.error f)) : f.In text := by
  cases h with
  | error h => exact h

end

theorem suffix_of_cons {c : Char} (h : c :: s <:+ text) : s <:+ text :=
  (List.suffix_cons c s).trans h

/-! ### Tokens -/

/-- A gap is in the middle of a comment that began in the text, and is not closed unless it is in
what is left. -/
def GapMode.BeganIn (text s : List Char) : GapMode → Prop
  | .block start => start <:+ text ∧ (¬ ['*', '/'] <:+: s → Unclosed start)
  | .blank       => True
  | .line        => True

theorem skipGap_ends {m : GapMode} (h : s <:+ text) (hm : m.BeganIn text s) :
    Ends id text (skipGap m s) := by
  fun_induction skipGap m s with
  | case1 s ih => exact ih (suffix_of_cons (suffix_of_cons h)) trivial
  | case2 s ih =>
      exact ih (suffix_of_cons (suffix_of_cons h)) ⟨h, fun unclosed => ⟨s, rfl, unclosed⟩⟩
  | case3 c s _ _ _ ih => exact ih (suffix_of_cons h) trivial
  | case4 => exact .ok h
  | case5 => exact .ok h
  | case6 s ih => exact ih (suffix_of_cons h) trivial
  | case7 c s _ ih => exact ih (suffix_of_cons h) trivial
  | case8 => exact .ok h
  | case9 start s ih => exact ih (suffix_of_cons (suffix_of_cons h)) trivial
  | case10 start c s stays ih =>
      refine ih (suffix_of_cons h) ⟨hm.1, fun unclosed => hm.2 fun closed => ?_⟩
      -- the end of the comment does not begin with `c`, so it is behind that character
      rcases List.infix_cons_iff.mp closed with front | behind
      · obtain ⟨rfl, t⟩ := List.cons_prefix_cons.mp front
        obtain ⟨t, rfl⟩ := t
        exact stays t rfl rfl
      · exact unclosed behind
  | case11 start => exact .stop (hm.2 (by simp)) hm.1

theorem gap_ends (h : s <:+ text) : Ends id text (gap s) :=
  skipGap_ends h trivial

theorem name_suffix (h : s <:+ text) : (name s).2 <:+ text :=
  (List.dropWhile_suffix _).trans h

theorem codeUnit_ends {n u : Nat} (h : s <:+ text) : Ends Prod.snd text (codeUnit n u s) := by
  fun_induction codeUnit n u s with
  | case1 => exact .ok h
  | case2 => exact .stop trivial h
  | case3 n u c s d _ ih => exact ih (suffix_of_cons h)
  | case4 => exact .stop trivial (suffix_of_cons h)

theorem must_ends {c : Char} (h : s <:+ text) : Ends id text (must c .unpairedSurrogate s) := by
  fun_cases must c .unpairedSurrogate s with
  | case1 => exact .stop trivial h
  | case2 => exact .ok (suffix_of_cons h)
  | case3 => exact .stop trivial (suffix_of_cons h)

theorem unicodeEscape_ends (h : s <:+ text) : Ends Prod.snd text (unicodeEscape s) := by
  refine (codeUnit_ends h).bind ?_
  rintro ⟨u, s₁⟩ h₁
  dsimp only
  split
  · refine (must_ends h₁).bind fun s₂ h₂ => ?_
    refine (must_ends h₂).bind fun s₃ h₃ => ?_
    refine (codeUnit_ends h₃).bind ?_
    rintro ⟨v, s₄⟩ h₄
    dsimp only
    split
    · exact .ok h₄
    · exact .stop trivial h₄
  · split
    · exact .stop trivial h₁
    · exact .ok h₁

theorem escape_ends (h : s <:+ text) : Ends Prod.snd text (escape s) := by
  unfold escape
  split
  · exact .stop trivial h
  · exact unicodeEscape_ends (suffix_of_cons h)
  · split
    · exact .ok (suffix_of_cons h)
    · exact .stop trivial (suffix_of_cons h)

theorem stringBody_ends {quote : Char} {n : Nat} (h : s <:+ text) :
    Ends Prod.snd text (stringBody quote n s) := by
  induction n generalizing s with
  | zero => exact .stop trivial h
  | succ n ih =>
      cases s with
      | nil => exact .stop trivial h
      | cons c s =>
          have hs := suffix_of_cons h
          rw [stringBody]
          split
          · exact .ok hs
          split
          · refine (escape_ends hs).bind fun p h₁ => ?_
            exact (ih h₁).bind fun q h₂ => .ok h₂
          split
          · exact .stop trivial hs
          · exact (ih hs).bind fun p h₁ => .ok h₁

theorem quoted_ends {size : Nat} {quote : Char} (h : s <:+ text) :
    Ends Prod.snd text (quoted size quote s) :=
  (stringBody_ends h).bind fun _ h₁ => .ok h₁

theorem key_ends {size : Nat} (h : s <:+ text) : Ends Prod.snd text (key size s) := by
  fun_cases key size s with
  | case1 => exact .stop rfl h
  | case2 c s _ => exact quoted_ends (suffix_of_cons h)
  | case3 c s _ _ => exact .ok (name_suffix h)
  | case4 c s _ _ => exact .stop rfl h

theorem expect_ends {c : Char} (h : s <:+ text) : Ends id text (expect c s) := by
  fun_cases expect c s with
  | case1 => exact .stop nofun h
  | case2 => exact .ok (suffix_of_cons h)
  | case3 d s other => exact .stop (fun e => other (Option.some.inj e)) h

/-! ### Values -/

/-- Neither of two characters stands here. -/
theorem not_mem_of_head? {a b : Char} (ha : ∀ t, s = a :: t → False)
    (hb : ∀ t, s = b :: t → False) : ∀ c ∈ s.head?, c ∉ [a, b] := by
  intro c hc
  obtain ⟨t, rfl⟩ := List.head?_eq_some_iff.mp hc
  rw [List.mem_pair, not_or]
  exact ⟨fun e => ha t (e ▸ rfl), fun e => hb t (e ▸ rfl)⟩

section
variable {item : Reader Value}
  (hi : ∀ {s}, s <:+ text → Reaches text .value s → Ends Prod.snd text (item s))
  (sound : ∀ {s v r}, item s = .ok (v, r) → Denotes s v r)

include hi sound

theorem items_ends {n : Nat} (h : s <:+ text) (hp : Reaches text .item s) (hn : s.length < n) :
    Ends Prod.snd text (items item n s) := by
  induction n generalizing s with
  | zero => exact absurd hn (Nat.not_lt_zero _)
  | succ n ih =>
      rw [items]
      refine (gap_ends h).bind_of_eq fun s₁ g₁ h₁ => ?_
      replace g₁ := (gap_eq_ok.mp g₁).1
      split
      · exact .ok (suffix_of_cons h₁)
      refine (hi h₁ (hp.item g₁)).bind_of_eq ?_
      rintro ⟨v, s₂⟩ hv h₂
      replace hv : Denotes s₁ v s₂ := sound hv
      refine (gap_ends h₂).bind_of_eq fun s₃ g₂ h₃ => ?_
      replace g₂ := (gap_eq_ok.mp g₂).1
      split
      · have := g₁.length_le; have := hv.length_lt; have := g₂.length_le
        simp only [List.length_cons] at *
        exact (ih (suffix_of_cons h₃) (hp.nextItem g₁ hv g₂) (by omega)).bind fun q h₄ => .ok h₄
      · exact .ok (suffix_of_cons h₃)
      · exact .stop (not_mem_of_head? ‹_› ‹_›) h₃

theorem fields_ends {size n : Nat} {seen : List String} (h : s <:+ text)
    (hp : Reaches text (.field seen) s) (hn : s.length < n) :
    Ends Prod.snd text (fields size item n seen s) := by
  induction n generalizing s seen with
  | zero => exact absurd hn (Nat.not_lt_zero _)
  | succ n ih =>
      rw [fields]
      refine (gap_ends h).bind_of_eq fun s₁ g₁ h₁ => ?_
      replace g₁ := (gap_eq_ok.mp g₁).1
      split
      · exact .ok (suffix_of_cons h₁)
      refine (key_ends h₁).bind_of_eq ?_
      rintro ⟨k, s₂⟩ hk h₂
      replace hk := key_sound hk
      refine (gap_ends h₂).bind_of_eq fun s₃ g₂ h₃ => ?_
      replace g₂ := (gap_eq_ok.mp g₂).1
      refine (expect_ends h₃).bind_of_eq fun s₄ colon h₄ => ?_
      obtain rfl := expect_eq_ok.mp colon
      refine (gap_ends h₄).bind_of_eq fun s₅ g₃ h₅ => ?_
      replace g₃ := (gap_eq_ok.mp g₃).1
      refine (hi h₅ (hp.field g₁ hk g₂ g₃)).bind_of_eq ?_
      rintro ⟨v, s₆⟩ hv h₆
      have hf : Field s₁ (k, v) s₆ := .mk hk g₂ g₃ (sound hv)
      dsimp only
      split
      · -- a repeated key stands where it began, and the value behind it has been passed
        rename_i old
        exact .stop ⟨seen, s, hp, g₁, old, _, hk⟩ h₁
      refine (gap_ends h₆).bind_of_eq fun s₇ g₄ h₇ => ?_
      replace g₄ := (gap_eq_ok.mp g₄).1
      split
      · have := g₁.length_le; have := hf.length_lt; have := g₄.length_le
        simp only [List.length_cons] at *
        exact (ih (suffix_of_cons h₇) (hp.nextField g₁ hf g₄) (by omega)).bind fun fs h₈ => .ok h₈
      · exact .ok (suffix_of_cons h₇)
      · exact .stop (not_mem_of_head? ‹_› ‹_›) h₇

end

theorem value_ends {size levels : Nat} (h : s <:+ text) (hp : Reaches text .value s)
    (hs : text.length < size) : Ends Prod.snd text (value size levels s) := by
  have short {c : Char} {r : List Char} (hr : c :: r <:+ text) : r.length < size :=
    Nat.lt_of_le_of_lt (suffix_of_cons hr).length_le hs
  -- the items of a bracket are read with one level less, whatever their number
  induction levels using Nat.strongRecOn generalizing s with
  | ind levels ih =>
      unfold value
      split
      · exact .stop rfl h
      · exact .stop ⟨_, rfl, by decide⟩ h
      · exact .stop ⟨_, rfl, by decide⟩ h
      · refine (fields_ends (ih _ (Nat.lt_succ_self _)) (fun hv => (value_sound hv).1)
          (suffix_of_cons h) hp.fields (short h)).bind ?_
        exact fun fs h₁ => .ok h₁
      · refine (items_ends (ih _ (Nat.lt_succ_self _)) (fun hv => (value_sound hv).1)
          (suffix_of_cons h) hp.items (short h)).bind ?_
        exact fun vs h₁ => .ok h₁
      · split
        · exact (quoted_ends (suffix_of_cons h)).bind fun p h₁ => .ok h₁
        · exact .stop rfl h

/-! ### Documents -/

/-- The rest of an assignment after the name. -/
theorem equals_ends (h : s <:+ text) :
    Ends id text (gap s >>= fun s => expect '=' s >>= gap) := by
  refine (gap_ends h).bind fun s₁ h₁ => ?_
  exact (expect_ends h₁).bind fun s₂ h₂ => gap_ends h₂

theorem assignment_ends (h : s <:+ text) : Ends id text (assignment s) := by
  cases s with
  | nil => exact .ok h
  | cons c s =>
      have hn := name_suffix h
      rw [assignment]
      split
      · dsimp only
        split
        · refine (gap_ends hn).bind fun s₁ h₁ => ?_
          split
          · split
            · exact equals_ends (name_suffix h₁)
            · rename_i other
              exact .stop (fun c hc => Option.some.inj hc ▸ other) h₁
          · exact .stop (fun c hc => absurd hc (Option.not_mem_none c)) h₁
        · exact equals_ends hn
      · exact .ok h

theorem ending_ends (h : s <:+ text) : Ends (fun _ => []) text (ending s) := by
  refine (gap_ends h).bind fun s₁ h₁ => ?_
  split
  · refine (gap_ends (suffix_of_cons h₁)).bind fun s₂ h₂ => ?_
    cases s₂ with
    | nil => exact .ok List.nil_suffix
    | cons c s₃ => exact .stop rfl h₂
  · have stay : Ends id text (.ok s₁) := .ok h₁
    refine stay.bind fun s₂ h₂ => ?_
    cases s₂ with
    | nil => exact .ok List.nil_suffix
    | cons c s₃ => exact .stop rfl h₂

/-- A script is read to its end, or to a fault in it. -/
theorem document_ends (text : List Char) : Ends (fun _ => []) text (document text) := by
  refine (gap_ends List.suffix_rfl).bind_of_eq fun s₁ g h₁ => ?_
  refine (assignment_ends h₁).bind_of_eq fun s₂ a h₂ => ?_
  have place : Reaches text .value s₂ := .document (gap_eq_ok.mp g).1 (assignment_sound a)
  refine (value_ends h₂ place (Nat.lt_succ_self _)).bind fun p h₃ => ?_
  exact (ending_ends h₃).bind fun _ h₄ => .ok h₄

/-- The fault of a script that is not read stands behind a part of its text, and its cause is to be
seen in what is left. -/
theorem read_stops_in {source : String} {e : Located Cause} (h : read source = .error e) :
    ∃ p r, dropMark source.toList = p ++ r ∧ e.position = Position.after p ∧
      e.cause.Explains (dropMark source.toList) r := by
  obtain ⟨f, hd, rfl⟩ := mapError_error_iff.mp h
  have ends := document_ends (dropMark source.toList)
  rw [hd] at ends
  obtain ⟨p, text, position⟩ := ends.of_error.locate
  rw [position]
  exact ⟨p, f.rest, text, rfl, ends.of_error.explains⟩

end Sidebar.Script
