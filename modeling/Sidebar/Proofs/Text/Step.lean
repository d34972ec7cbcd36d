/-!
# Text — steps of reading

A reader is a chain of steps each of which may fail.  It succeeds when every step does, so its
success is taken apart step by step (`bind_eq_ok`).  A token whose end is not marked is the longest
run of its characters (`takeWhile_append_eq`, `dropWhile_append_eq`).
-/

namespace Sidebar.Text

variable {ε α β : Type}

@[simp] theorem ok_bind (a : α) (f : α → Except ε β) : (Except.ok a >>= f) = f a := rfl

@[simp] theorem error_bind (e : ε) (f : α → Except ε β) :
    ((Except.error e : Except ε α) >>= f) = .error e := rfl

/-- A chain succeeds when its first step does and the others do from there. -/
theorem bind_eq_ok {x : Except ε α} {f : α → Except ε β} {b : β} :
    x >>= f = .ok b ↔ ∃ a, x = .ok a ∧ f a = .ok b := by
  cases x with
  | error e => simp
  | ok a => simp

/-- A chain fails when its first step does, or the others do from there. -/
theorem bind_eq_error {x : Except ε α} {f : α → Except ε β} {e : ε} :
    x >>= f = .error e ↔ x = .error e ∨ ∃ a, x = .ok a ∧ f a = .error e := by
  cases x with
  | error e => simp
  | ok a => simp

theorem mapError_ok_iff {ε' : Type} {x : Except ε α} {f : ε → ε'} {a : α} :
    x.mapError f = .ok a ↔ x = .ok a := by
  cases x with
  | error e => exact ⟨fun h => (nomatch h), fun h => (nomatch h)⟩
  | ok a => exact ⟨fun h => congrArg _ (Except.ok.inj h), fun h => congrArg _ (Except.ok.inj h)⟩

theorem mapError_error_iff {ε' : Type} {x : Except ε α} {f : ε → ε'} {e' : ε'} :
    x.mapError f = .error e' ↔ ∃ e, x = .error e ∧ f e = e' := by
  cases x with
  | error e =>
      refine ⟨fun h => ⟨e, rfl, Except.error.inj h⟩, ?_⟩
      rintro ⟨_, h, rfl⟩
      rw [Except.error.inj h]
      rfl
  | ok a =>
      refine ⟨fun h => (nomatch h), ?_⟩
      rintro ⟨_, h, -⟩
      exact nomatch h

theorem map_eq_ok {x : Except ε α} {f : α → β} {b : β} :
    x.map f = .ok b ↔ ∃ a, x = .ok a ∧ f a = b := by
  cases x <;> simp [Except.map]

theorem toOption_map_eq_some {x : Except ε α} {f : α → β} {b : β} :
    x.toOption.map f = some b ↔ ∃ a, x = .ok a ∧ f a = b := by
  cases x with
  | error e => simp [Except.toOption]
  | ok a => simp [Except.toOption]

/-! ### Characters of a kind -/

theorem not_of_all {p : Char → Bool} {l : List Char} (h : l.all (fun d => !p d)) {c : Char}
    (hc : c ∈ l) : ¬ p c := by
  simpa using List.all_eq_true.mp h c hc

/-! ### Longest runs -/

section
variable {p : α → Bool} {w r : List α}

theorem takeWhile_append_eq (hw : ∀ c ∈ w, p c) (hr : ∀ c ∈ r.head?, ¬ p c) :
    (w ++ r).takeWhile p = w := by
  rw [List.takeWhile_append_of_pos hw]
  cases r with
  | nil => simp
  | cons c r => rw [List.takeWhile_cons_of_neg (hr c rfl), List.append_nil]

theorem dropWhile_append_eq (hw : ∀ c ∈ w, p c) (hr : ∀ c ∈ r.head?, ¬ p c) :
    (w ++ r).dropWhile p = r := by
  rw [List.dropWhile_append_of_pos hw]
  cases r with
  | nil => rfl
  | cons c r => rw [List.dropWhile_cons_of_neg (hr c rfl)]

theorem not_of_mem_head?_dropWhile {s : List α} {c : α} (h : c ∈ (s.dropWhile p).head?) :
    ¬ p c := by
  have := List.head?_dropWhile_not p s
  rw [Option.mem_def.mp h] at this
  simpa using this

end

end Sidebar.Text
