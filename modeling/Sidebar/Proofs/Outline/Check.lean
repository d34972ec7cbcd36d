import Sidebar.Proofs.Outline.Fault
import Sidebar.Proofs.Outline.Path

/-!
# Outline — what the checks of a value give

The checks of a record are made in a fixed order, and each that is passed raises the rank of what
can still be wrong (`le_rank`).  A check succeeds where nothing is wrong, and fails with the first
fault (`Judged`).

* `ofValue_blames_first`: a value is an outline, or is refused for its first fault.
-/

namespace Sidebar.Shape

open Sidebar.Text

/-! ### The checks of one record -/

section
variable {l : Level} {fs : List (String × Value)} {r : Reason} {path : Path}

/-- What is still to be checked is at least as far in the order as what has been passed. -/
theorem le_rank (hd : (Value.record fs).Distinct) {n : Nat} (hn : n ≤ 4)
    (known : 1 < n → ∀ f ∈ fs, f.1 ∈ l.keys)
    (strings : ∀ key ∈ l.required, keyRank key < n → ∃ s, lookup? key fs = some (.string s))
    (h : Fault l (.record fs) r) : n ≤ rank r := by
  refine Nat.le_of_not_lt fun lt => ?_
  rcases h.of_record hd with ⟨e, f, hf, hu⟩ | ⟨key, hk, e, hs⟩ | ⟨e, -⟩
  · exact hu (known (e ▸ lt) f hf)
  · obtain ⟨s, hs'⟩ := strings key hk (e ▸ lt)
    exact hs s hs'
  · exact absurd (e ▸ lt) (Nat.not_lt_of_le hn)

theorem least?_eq_some {ks : List String} {k : String} (h : least? ks = some k) :
    k ∈ ks ∧ ∀ k' ∈ ks, k ≤ k' := by
  induction ks generalizing k with
  | nil => exact nomatch h
  | cons a ks ih =>
      rw [least?] at h
      cases hm : least? ks with
      | none =>
          rw [hm] at h
          obtain rfl := Option.some.inj h
          simp [least?_eq_none.mp hm]
      | some m =>
          rw [hm] at h
          obtain ⟨hmem, hle⟩ := ih hm
          rw [List.forall_mem_cons]
          by_cases lt : a < m
          · obtain rfl : a = k := by simpa [lt] using h
            exact ⟨List.mem_cons_self, String.le_refl a, fun k' hk' =>
              String.le_trans (String.not_lt.mp (String.lt_asymm lt)) (hle k' hk')⟩
          · obtain rfl : m = k := by simpa [lt] using h
            exact ⟨List.mem_cons_of_mem _ hmem, String.not_lt.mp lt, hle⟩

theorem first_unknownKey {key : String} (hd : (Value.record fs).Distinct)
    (h : unknownKey? l.keys fs = some key) : First ⟨l, .record fs⟩ (.unknownKey key) := by
  obtain ⟨hmem, hle⟩ := least?_eq_some h
  simp only [List.mem_filter, List.contains_eq_mem, Bool.not_eq_true', decide_eq_false_iff_not]
    at hmem hle
  refine ⟨.unknownKey hmem.1 hmem.2 fun k hk hu => utf8_le_iff.mpr (hle k ⟨hk, hu⟩), fun r => ?_⟩
  refine le_rank hd (n := 1) (by decide) (fun h => absurd h (by decide)) fun k hk lt => ?_
  exact absurd lt (Nat.not_lt.mpr (Nat.le_trans (by decide) (keyRank_bounds k).1))

theorem stringField_eq_error {key : String} {m : Misfit} (hk : key ∈ l.required)
    (h : stringField path fs key = .error m) : m.path = path ∧ Fault l (.record fs) m.reason ∧
      rank m.reason = keyRank key := by
  unfold stringField at h
  split at h
  · exact nomatch h
  · rename_i v hv e
    obtain rfl := Except.error.inj h
    exact ⟨rfl, .notAString hk (mem_of_lookup? e) hv, rfl⟩
  · rename_i e
    obtain rfl := Except.error.inj h
    refine ⟨rfl, .missingKey hk fun hm => ?_, rfl⟩
    obtain ⟨f, hf, rfl⟩ := List.mem_map.mp hm
    exact lookup?_eq_none.mp e f.2 hf

/-! ### What the checks give -/

/-- The result of a check is a success where nothing is wrong, and else the first fault. -/
def Judged {α : Type} (s : Slot) (path : Path) : Except Misfit α → Prop
  | .ok _    => NoneAt Slot.below Slot.Faulty s
  | .error m => ∃ p t, m.path = path ++ p ∧ FirstAt Slot.below Slot.Faulty s p t ∧
      First t m.reason

/-- The same for a row of values, numbered from `i` on. -/
def JudgedFrom (path : Path) (i : Nat) (vs : List Value) : Except Misfit (List Item) → Prop
  | .ok _    => ∀ v ∈ vs, NoneAt Slot.below Slot.Faulty ⟨.item, v⟩
  | .error m => ∃ p t, m.path = path ++ p ∧
      FirstFrom Slot.below Slot.Faulty i (vs.map (Slot.mk .item)) p t ∧ First t m.reason

theorem Judged.map {α β : Type} {s : Slot} {x : Except Misfit α} (f : α → β)
    (h : Judged s path x) : Judged s path (x.map f) := by
  cases x <;> exact h

/-- A fault of the value itself, with none before it. -/
theorem Judged.of_first {α : Type} {s : Slot} {m : Misfit} (hm : m.path = path)
    (h : First s m.reason) : Judged s path (.error m : Except Misfit α) :=
  ⟨[], s, by rw [hm, List.append_nil], .here ⟨_, h.1⟩, h⟩

theorem judged_itemsFrom {vs : List Value} {i : Nat}
    (h : ∀ v ∈ vs, ∀ path, Judged ⟨.item, v⟩ path (item path v)) :
    JudgedFrom path i vs (itemsFrom path i vs) := by
  induction vs generalizing i with
  | nil => exact fun u hu => absurd hu List.not_mem_nil
  | cons v vs ih =>
      rw [List.forall_mem_cons] at h
      rw [itemsFrom]
      have head := h.1 (path ++ [i])
      cases hx : item (path ++ [i]) v with
      | error m =>
          rw [hx] at head
          obtain ⟨p, t, hm, first, hr⟩ := head
          exact ⟨i :: p, t, by rw [hm, List.append_assoc]; rfl, .head first, hr⟩
      | ok x =>
          rw [hx] at head
          have tail := ih (i := i + 1) h.2
          rw [ok_bind]
          cases hxs : itemsFrom path (i + 1) vs with
          | error m =>
              rw [hxs] at tail
              obtain ⟨p, t, hm, first, hr⟩ := tail
              exact ⟨p, t, hm, .tail head first, hr⟩
          | ok xs =>
              rw [hxs] at tail
              exact List.forall_mem_cons.mpr ⟨head, tail⟩

/-- The values below one at which nothing is wrong. -/
theorem JudgedFrom.judged {s : Slot} {vs : List Value} {x : Except Misfit (List Item)}
    (hs : ¬ s.Faulty) (hb : s.below = vs.map (Slot.mk .item)) (h : JudgedFrom path 0 vs x) :
    Judged s path x := by
  cases x with
  | ok xs =>
      refine .of_below hs fun t ht => ?_
      rw [hb] at ht
      obtain ⟨v, hv, rfl⟩ := List.mem_map.mp ht
      exact h v hv
  | error m =>
      obtain ⟨p, t, hm, first, hr⟩ := h
      exact ⟨p, t, hm, .down hs (hb ▸ first), hr⟩

/-- A record of which only the children are left to check. -/
theorem judged_childrenField (hd : (Value.record fs).Distinct)
    (passed : ∀ r, Fault l (.record fs) r → 4 ≤ rank r)
    (below : ∀ vs, ("children", .sequence vs) ∈ fs →
      JudgedFrom path 0 vs (itemsFrom path 0 vs)) :
    Judged ⟨l, .record fs⟩ path (childrenField path fs) := by
  have left : Slot.Faulty ⟨l, .record fs⟩ →
      ∃ v, lookup? "children" fs = some v ∧ ∀ vs, v ≠ .sequence vs := by
    rintro ⟨r, hr⟩
    have le := passed r hr
    rcases hr.of_record hd with ⟨e, -⟩ | ⟨k, -, e, -⟩ | ⟨-, h⟩
    · exact absurd (e ▸ le) (by decide)
    · exact absurd (Nat.le_trans (e ▸ le) (keyRank_bounds k).2) (by decide)
    · exact h
  rw [childrenField_eq]
  cases hc : lookup? "children" fs with
  | none =>
      refine .of_below (fun hf => ?_) fun t ht => ?_
      · obtain ⟨v, hv, -⟩ := left hf
        exact nomatch hc.symm.trans hv
      · simp [Slot.below, hc] at ht
  | some v =>
      have hv := mem_of_lookup? hc
      by_cases hs : ∃ vs, v = .sequence vs
      · obtain ⟨vs, rfl⟩ := hs
        refine (below vs hv).judged (fun hf => ?_) (by simp [Slot.below, hc])
        obtain ⟨w, hw, hn⟩ := left hf
        exact hn vs (Option.some.inj (hw.symm.trans hc))
      · have hn : ∀ vs, v ≠ .sequence vs := fun vs e => hs ⟨vs, e⟩
        have e : children path v = .error ⟨path, .childrenNotASequence v.kind⟩ := by
          cases v <;> first | rfl | exact absurd rfl (hn _)
        rw [Option.elim_some, e]
        exact .of_first rfl ⟨.childrenNotASequence hv hn, passed⟩

end

/-! ### Items -/

theorem judged_record {fs : List (String × Value)} {path : Path}
    (hd : (Value.record fs).Distinct)
    (below : ∀ vs, ("children", .sequence vs) ∈ fs →
      JudgedFrom path 0 vs (itemsFrom path 0 vs)) :
    Judged ⟨.item, .record fs⟩ path (item path (.record fs)) := by
  rw [item]
  cases hk : unknownKey? itemKeys fs with
  | some key => exact .of_first rfl (first_unknownKey hd hk)
  | none =>
      have known : ∀ f ∈ fs, f.1 ∈ Level.item.keys := unknownKey?_eq_none.mp hk
      have required : ∀ key ∈ Level.item.required, key = "text" ∨ key = "url" := by
        simp [Level.required]
      cases ht : stringField path fs "text" with
      | error m =>
          obtain ⟨hm, hf, e⟩ := stringField_eq_error (l := .item) (by simp [Level.required]) ht
          refine .of_first hm ⟨hf, fun r => e ▸ le_rank hd (by decide) (fun _ => known) ?_⟩
          exact fun key _ lt => absurd lt (Nat.not_lt.mpr (keyRank_bounds key).1)
      | ok text =>
      have text' := stringField_eq_ok.mp ht
      cases hu : stringField path fs "url" with
      | error m =>
          obtain ⟨hm, hf, e⟩ := stringField_eq_error (l := .item) (by simp [Level.required]) hu
          refine .of_first hm ⟨hf, fun r => e ▸ le_rank hd (by decide) (fun _ => known) ?_⟩
          intro key hkey lt
          rcases required key hkey with rfl | rfl
          · exact ⟨text, text'⟩
          · exact absurd lt (Nat.lt_irrefl _)
      | ok url =>
      have url' := stringField_eq_ok.mp hu
      have passed : ∀ r, Fault .item (.record fs) r → 4 ≤ rank r := fun r =>
        le_rank hd (Nat.le_refl 4) (fun _ => known) fun key hkey _ => by
          rcases required key hkey with rfl | rfl
          · exact ⟨text, text'⟩
          · exact ⟨url, url'⟩
      have row : Judged ⟨.item, .record fs⟩ path (childrenField path fs) :=
        judged_childrenField hd passed below
      have h := row.map (Item.mk text url)
      cases hc : childrenField path fs with
      | error m => rw [hc] at h; exact h
      | ok xs => rw [hc] at h; exact h

/-- What a value is taken for as an item, and what a sequence is taken for below one. -/
theorem judged_item {v : Value} (hd : v.Distinct) :
    (∀ path, Judged ⟨.item, v⟩ path (item path v)) ∧
    ∀ vs path, v = .sequence vs → JudgedFrom path 0 vs (itemsFrom path 0 vs) := by
  have other : ∀ v : Value, (∀ fs, v ≠ .record fs) → First ⟨.item, v⟩ (.notARecord v.kind) :=
    fun v hv => ⟨.notARecord hv nofun, fun _ _ => Nat.zero_le _⟩
  induction v using Value.induction with
  | null => exact ⟨fun path => .of_first rfl (other _ nofun), nofun⟩
  | boolean b => exact ⟨fun path => .of_first rfl (other _ nofun), nofun⟩
  | number n => exact ⟨fun path => .of_first rfl (other _ nofun), nofun⟩
  | string s => exact ⟨fun path => .of_first rfl (other _ nofun), nofun⟩
  | sequence vs ih =>
      obtain _ | _ | _ | _ | hd | _ := hd
      refine ⟨fun path => .of_first rfl (other _ nofun), fun ws path e => ?_⟩
      obtain rfl := Value.sequence.inj e
      exact judged_itemsFrom fun v hv => (ih v hv (hd v hv)).1
  | record fs ih =>
      obtain _ | _ | _ | _ | _ | ⟨-, hd'⟩ := id hd
      exact ⟨fun path => judged_record hd fun vs h => (ih _ h (hd' _ h)).2 vs path rfl, nofun⟩

/-! ### Outlines -/

theorem judged_ofValue {v : Value} (hd : v.Distinct) :
    Judged ⟨.top, v⟩ [] (Outline.ofValue v) := by
  unfold Outline.ofValue
  split
  · rename_i fs
    cases hk : unknownKey? ["children"] fs with
    | some key => exact .of_first rfl (first_unknownKey (l := .top) hd hk)
    | none =>
        have known : ∀ f ∈ fs, f.1 ∈ Level.top.keys := unknownKey?_eq_none.mp hk
        refine (judged_childrenField hd (fun r => ?_) fun vs h => ?_).map Outline.mk
        · exact le_rank hd (Nat.le_refl 4) (fun _ => known) fun key hkey =>
            absurd hkey List.not_mem_nil
        · obtain _ | _ | _ | _ | _ | ⟨-, hd'⟩ := hd
          exact (judged_item (hd' _ h)).2 vs [] rfl
  · rename_i vs
    have proper : ¬ Slot.Faulty ⟨.top, .sequence vs⟩ := by
      rintro ⟨r, hr⟩
      cases hr with
      | notARecord _ hs => exact hs rfl vs rfl
    exact (((judged_item hd).2 vs [] rfl).judged proper rfl).map Outline.mk
  · rename_i hr hs
    exact .of_first rfl ⟨.notARecord hr fun _ => hs, fun _ _ => Nat.zero_le _⟩

/-- **A value is an outline, or is refused for its first fault.**  The text of the place given
tells one path only; nothing is wrong with what stands before it in reading order, and the reason
is the first that applies there. -/
theorem ofValue_blames_first {v : Value} (hd : v.Distinct) :
    (∀ o, Outline.ofValue v = .ok o ↔ IsOutline v o) ∧
    ∀ m, Outline.ofValue v = .error m ↔
      ∃ p, (∀ q : Path, q.text = m.path.text ↔ q = p) ∧ Blames v p m.reason := by
  have judged := judged_ofValue hd
  refine ⟨fun o => ofValue_eq_ok hd, fun m => ⟨fun h => ?_, ?_⟩⟩
  · rw [h] at judged
    obtain ⟨p, s, hm, first⟩ := judged
    exact ⟨m.path, fun q => Path.text_inj, s, by rwa [hm]⟩
  · rintro ⟨p, hp, hb⟩
    obtain rfl : m.path = p := (hp m.path).mp rfl
    cases hv : Outline.ofValue v with
    | ok o =>
        rw [hv] at judged
        obtain ⟨s, hs, -⟩ := hb
        exact absurd judged hs.not_noneAt
    | error m' =>
        rw [hv] at judged
        obtain ⟨p', s, hm', first⟩ := judged
        obtain ⟨path, reason⟩ := m
        obtain ⟨path', reason'⟩ := m'
        obtain rfl : path' = p' := hm'
        obtain ⟨rfl, rfl⟩ := hb.unique hd ⟨s, first⟩
        rfl

/-- Two items, of which the second has two unknown keys, no address and a label that is no
string. -/
def crooked : Value :=
  .sequence [.record [("text", .string "Home"), ("url", .string "/")],
    .record [("zoom", .null), ("icon", .null), ("text", .null)]]

theorem ofValue_blames_first_crooked : crooked.Distinct ∧
    Outline.ofValue crooked = .error ⟨[1], .unknownKey "icon"⟩ ∧
    ∃ p : Path, (∀ q : Path, q.text = "children[1]" ↔ q = p) ∧
      Blames crooked p (.unknownKey "icon") := by
  have hd : crooked.Distinct := .sequence (by
    simp only [List.forall_mem_cons]
    exact ⟨.record (by decide) (by simp [Value.Distinct.string]),
      .record (by decide) (by simp [Value.Distinct.null]), by simp⟩)
  have refused : Outline.ofValue crooked = .error ⟨[1], .unknownKey "icon"⟩ := by rfl
  exact ⟨hd, refused, ((ofValue_blames_first hd).2 _).mp refused⟩

end Sidebar.Shape
