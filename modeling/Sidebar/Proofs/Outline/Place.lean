import Sidebar.Outline.Basic

/-!
# Outline — the first place of a kind

Things that have others of their kind right below them, in a row, are found by their paths.  Paths
are in reading order: a path comes before the ones it begins, and of two that part, the one that
goes further to the left comes first.

* `FirstAt.down`, `FirstAt.unique`: the first bad place, found row by row, is the only one.
-/

namespace Sidebar

section
variable {α : Type} {below : α → List α} {bad : α → Prop}

/-- What a path leads to. -/
def Path.follow (below : α → List α) (a : α) : Path → Option α
  | []     => some a
  | i :: p => (below a)[i]?.bind fun b => Path.follow below b p

/-- No place at or below `a` is bad. -/
def NoneAt (below : α → List α) (bad : α → Prop) (a : α) : Prop :=
  ∀ p b, Path.follow below a p = some b → ¬ bad b

/-- The path `p` leads from `a` to `b`, the first bad place in reading order. -/
structure FirstAt (below : α → List α) (bad : α → Prop) (a : α) (p : Path) (b : α) : Prop where
  leads : Path.follow below a p = some b
  isBad : bad b
  before : ∀ q c, q < p → Path.follow below a q = some c → ¬ bad c

/-- The same in a row of places, numbered from `i` on. -/
inductive FirstFrom (below : α → List α) (bad : α → Prop) : Nat → List α → Path → α → Prop where
  | head {i : Nat} {a b : α} {as : List α} {p : Path} (h : FirstAt below bad a p b) :
      FirstFrom below bad i (a :: as) (i :: p) b
  | tail {i : Nat} {a b : α} {as : List α} {p : Path} (ha : NoneAt below bad a)
      (t : FirstFrom below bad (i + 1) as p b) : FirstFrom below bad i (a :: as) p b

theorem follow_cons_eq_some {a b : α} {i : Nat} {p : Path} :
    Path.follow below a (i :: p) = some b ↔
      ∃ c, (below a)[i]? = some c ∧ Path.follow below c p = some b := by
  rw [Path.follow, Option.bind_eq_some_iff]

theorem NoneAt.of_below {a : α} (ha : ¬ bad a) (h : ∀ b ∈ below a, NoneAt below bad b) :
    NoneAt below bad a := by
  intro p b hp
  match p with
  | [] => exact Option.some.inj hp ▸ ha
  | i :: p =>
      obtain ⟨c, hc, hb⟩ := follow_cons_eq_some.mp hp
      exact h c (List.mem_of_getElem? hc) p b hb

theorem FirstAt.here {a : α} (ha : bad a) : FirstAt below bad a [] a :=
  ⟨rfl, ha, fun q _ lt => absurd lt (List.not_lt_nil q)⟩

theorem FirstAt.not_noneAt {a b : α} {p : Path} (h : FirstAt below bad a p b) :
    ¬ NoneAt below bad a :=
  fun none => none p b h.leads h.isBad

/-- A place has one first bad place. -/
theorem FirstAt.unique {a b b' : α} {p p' : Path} (h : FirstAt below bad a p b)
    (h' : FirstAt below bad a p' b') : p = p' ∧ b = b' := by
  have lt : ¬ p < p' := fun lt => h'.before p b lt h.leads h.isBad
  have gt : ¬ p' < p := fun gt => h.before p' b' gt h'.leads h'.isBad
  obtain rfl : p = p' := Std.Trichotomous.trichotomous (r := (· < ·)) p p' lt gt
  exact ⟨rfl, Option.some.inj (h.leads.symm.trans h'.leads)⟩

/-- Where in the row the first bad place is; nothing is bad at or below the members before it. -/
theorem FirstFrom.exists {i : Nat} {as : List α} {p : Path} {b : α}
    (h : FirstFrom below bad i as p b) :
    ∃ j a q, p = (i + j) :: q ∧ as[j]? = some a ∧ FirstAt below bad a q b ∧
      ∀ k c, k < j → as[k]? = some c → NoneAt below bad c := by
  induction h with
  | head h => exact ⟨0, _, _, rfl, rfl, h, fun k _ hk => absurd hk (Nat.not_lt_zero k)⟩
  | @tail i a _ as _ ha _ ih =>
      obtain ⟨j, a', q, rfl, hj, h, before⟩ := ih
      refine ⟨j + 1, a', q, by rw [Nat.add_assoc, Nat.add_comm 1], hj, h, fun k c hk hc => ?_⟩
      cases k with
      | zero => exact Option.some.inj hc ▸ ha
      | succ k => exact before k c (Nat.lt_of_succ_lt_succ hk) hc

/-- What comes before the first bad place of a row lies before it in the row, or at or below the
same member. -/
theorem FirstFrom.before {as : List α} {p q : Path} {b c : α} {i : Nat}
    (h : FirstFrom below bad 0 as p b) (lt : i :: q < p)
    (hc : as[i]?.bind (Path.follow below · q) = some c) : ¬ bad c := by
  obtain ⟨j, a, r, rfl, hj, first, none⟩ := h.exists
  obtain ⟨a', ha', hq⟩ := Option.bind_eq_some_iff.mp hc
  rw [Nat.zero_add] at lt
  rcases List.cons_lt_cons_iff.mp lt with hlt | ⟨rfl, hlt⟩
  · exact none i a' hlt ha' q c hq
  · obtain rfl := Option.some.inj (hj.symm.trans ha')
    exact first.before q c hlt hq

/-- The first bad place of the row below a place that is not bad. -/
theorem FirstAt.down {a b : α} {p : Path} (ha : ¬ bad a)
    (h : FirstFrom below bad 0 (below a) p b) : FirstAt below bad a p b := by
  refine ⟨?_, ?_, fun q c lt hc => ?_⟩
  · obtain ⟨j, a', r, rfl, hj, first, -⟩ := h.exists
    rw [Nat.zero_add]
    exact follow_cons_eq_some.mpr ⟨a', hj, first.leads⟩
  · obtain ⟨j, a', r, -, -, first, -⟩ := h.exists
    exact first.isBad
  · match q with
    | [] => exact Option.some.inj hc ▸ ha
    | i :: q => exact h.before lt hc

end

end Sidebar
