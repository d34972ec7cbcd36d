import Sidebar.Proofs.Text.Step
import Sidebar.Proofs.Value.Keys
import Sidebar.Proofs.Value.Nesting
import Sidebar.Outline.Shape

/-!
# Outline — the values that are outlines

`IsOutline v o`: the value `v` has the shape of an outline, and `o` is that outline.

* `ofValue_eq_ok`: where no record repeats a key, the outline of a value is the one the relation
  gives.
* `IsOutline.plain`: an outline is written with strings, sequences and records only.
-/

namespace Sidebar.Shape

open Sidebar.Text

mutual

/-- `v` is the record of the item `x`. -/
inductive IsItem : Value → Item → Prop where
  | leaf {fs : List (String × Value)} {text url : String} (known : ∀ f ∈ fs, f.1 ∈ itemKeys)
      (ht : ("text", .string text) ∈ fs) (hu : ("url", .string url) ∈ fs)
      (hc : ∀ v, ("children", v) ∉ fs) : IsItem (.record fs) ⟨text, url, []⟩
  | branch {fs : List (String × Value)} {text url : String} {vs : List Value} {xs : List Item}
      (known : ∀ f ∈ fs, f.1 ∈ itemKeys) (ht : ("text", .string text) ∈ fs)
      (hu : ("url", .string url) ∈ fs) (hc : ("children", .sequence vs) ∈ fs)
      (h : AreItems vs xs) : IsItem (.record fs) ⟨text, url, xs⟩

/-- `vs` are the records of the items `xs`, one by one. -/
inductive AreItems : List Value → List Item → Prop where
  | nil : AreItems [] []
  | cons {v : Value} {vs : List Value} {x : Item} {xs : List Item} (h : IsItem v x)
      (t : AreItems vs xs) : AreItems (v :: vs) (x :: xs)

end

/-- `v` is a sequence of item records, or a record that has one under `children` or nothing at
all. -/
inductive IsOutline : Value → Outline → Prop where
  | sequence {vs : List Value} {xs : List Item} (h : AreItems vs xs) :
      IsOutline (.sequence vs) ⟨xs⟩
  | empty : IsOutline (.record []) ⟨[]⟩
  | record {vs : List Value} {xs : List Item} (h : AreItems vs xs) :
      IsOutline (.record [("children", .sequence vs)]) ⟨xs⟩

/-! ### Keys -/

theorem lookup?_eq_none {key : String} {fs : List (String × Value)} :
    lookup? key fs = none ↔ ∀ v, (key, v) ∉ fs := by
  simp only [lookup?, Option.map_eq_none_iff, List.find?_eq_none, beq_iff_eq]
  constructor
  · intro h v hv; exact h _ hv rfl
  · rintro h ⟨k, v⟩ hv rfl; exact h v hv

theorem mem_of_lookup? {key : String} {fs : List (String × Value)} {v : Value}
    (h : lookup? key fs = some v) : (key, v) ∈ fs := by
  obtain ⟨f, hf, rfl⟩ := Option.map_eq_some_iff.mp h
  obtain rfl : f.1 = key := by simpa using List.find?_some hf
  exact List.mem_of_find?_eq_some hf

theorem lookup?_eq_some {key : String} {fs : List (String × Value)} {v : Value}
    (hd : (fs.map (·.1)).Nodup) : lookup? key fs = some v ↔ (key, v) ∈ fs := by
  refine ⟨mem_of_lookup?, fun h => ?_⟩
  cases h' : lookup? key fs with
  | none => exact absurd h (lookup?_eq_none.mp h' v)
  | some w => rw [Value.value_eq_of_mem hd h (mem_of_lookup? h')]

theorem least?_eq_none {ks : List String} : least? ks = none ↔ ks = [] := by
  cases ks with
  | nil => simp [least?]
  | cons k ks =>
      rw [least?]
      split <;> simp

theorem unknownKey?_eq_none {known : List String} {fs : List (String × Value)} :
    unknownKey? known fs = none ↔ ∀ f ∈ fs, f.1 ∈ known := by
  simp [unknownKey?, least?_eq_none, List.filter_eq_nil_iff]

theorem stringField_eq_ok {path : Path} {fs : List (String × Value)} {key text : String} :
    stringField path fs key = .ok text ↔ lookup? key fs = some (.string text) := by
  unfold stringField
  split
  · rename_i e; simp [e]
  · rename_i v hv e; simp [e]; exact hv text
  · rename_i e; simp [e]

theorem childrenField_eq (path : Path) (fs : List (String × Value)) :
    childrenField path fs = (lookup? "children" fs).elim (.ok []) (children path) := by
  induction fs with
  | nil => rfl
  | cons f fs ih =>
      rw [childrenField, lookup?, List.find?_cons]
      by_cases h : f.1 = "children"
      · simp [h]
      · simp only [h, if_false, beq_eq_false_iff_ne.mpr h, ih, lookup?]

theorem item_record_eq_ok {path : Path} {fs : List (String × Value)} {text url : String}
    {xs : List Item} (hd : (fs.map (·.1)).Nodup) :
    item path (.record fs) = .ok ⟨text, url, xs⟩ ↔ (∀ f ∈ fs, f.1 ∈ itemKeys) ∧
      ("text", .string text) ∈ fs ∧ ("url", .string url) ∈ fs ∧
      childrenField path fs = .ok xs := by
  rw [item]
  cases hk : unknownKey? itemKeys fs with
  | some k =>
      constructor
      · intro h; exact nomatch h
      · rintro ⟨known, -⟩; exact nomatch hk.symm.trans (unknownKey?_eq_none.mpr known)
  | none =>
      simp only [bind_eq_ok, stringField_eq_ok, lookup?_eq_some hd,
        Except.ok.injEq, Item.mk.injEq]
      constructor
      · rintro ⟨_, ht, _, hu, _, hc, rfl, rfl, rfl⟩
        exact ⟨unknownKey?_eq_none.mp hk, ht, hu, hc⟩
      · rintro ⟨-, ht, hu, hc⟩
        exact ⟨_, ht, _, hu, _, hc, rfl, rfl, rfl⟩

/-! ### Items -/

theorem itemsFrom_sound {vs : List Value} {path : Path} {i : Nat} {xs : List Item}
    (hv : ∀ v ∈ vs, ∀ {path x}, item path v = .ok x → IsItem v x)
    (h : itemsFrom path i vs = .ok xs) : AreItems vs xs := by
  induction vs generalizing i xs with
  | nil =>
      obtain rfl := Except.ok.inj h
      exact .nil
  | cons v vs ih =>
      rw [List.forall_mem_cons] at hv
      obtain ⟨x, hx, k₁⟩ := bind_eq_ok.mp h
      obtain ⟨ys, hy, k₂⟩ := bind_eq_ok.mp k₁
      obtain rfl := Except.ok.inj k₂
      exact .cons (hv.1 hx) (ih hv.2 hy)

/-- What is taken for an item, and what is taken for the children of one. -/
theorem sound {v : Value} (hd : v.Distinct) :
    (∀ {path x}, item path v = .ok x → IsItem v x) ∧
    (∀ {path xs}, children path v = .ok xs → ∃ vs, v = .sequence vs ∧ AreItems vs xs) := by
  induction v using Value.induction with
  | null => exact ⟨fun h => (nomatch h), fun h => (nomatch h)⟩
  | boolean b => exact ⟨fun h => (nomatch h), fun h => (nomatch h)⟩
  | number n => exact ⟨fun h => (nomatch h), fun h => (nomatch h)⟩
  | string s => exact ⟨fun h => (nomatch h), fun h => (nomatch h)⟩
  | sequence vs ih =>
      obtain _ | _ | _ | _ | hd | _ := hd
      exact ⟨fun h => (nomatch h), fun h =>
        ⟨vs, rfl, itemsFrom_sound (fun v hv => (ih v hv (hd v hv)).1) h⟩⟩
  | record fs ih =>
      obtain _ | _ | _ | _ | _ | ⟨hk, hd⟩ := hd
      refine ⟨fun {path x} h => ?_, fun h => (nomatch h)⟩
      obtain ⟨text, url, xs⟩ := x
      obtain ⟨known, ht, hu, hc⟩ := (item_record_eq_ok hk).mp h
      rw [childrenField_eq] at hc
      cases h' : lookup? "children" fs with
      | none =>
          rw [h'] at hc
          obtain rfl := Except.ok.inj hc
          exact .leaf known ht hu (lookup?_eq_none.mp h')
      | some v =>
          -- the field is a part of the record, and it is taken for children, not for an item
          rw [h'] at hc
          have hv := mem_of_lookup? h'
          obtain ⟨vs, rfl, hvs⟩ := (ih _ hv (hd _ hv)).2 hc
          exact .branch known ht hu hv hvs

mutual

theorem IsItem.item_eq : {v : Value} → {x : Item} → IsItem v x → v.Distinct →
    ∀ path, item path v = .ok x
  | _, _, .leaf known ht hu hc, .record hk hd, path => by
      refine (item_record_eq_ok hk).mpr ⟨known, ht, hu, ?_⟩
      rw [childrenField_eq, lookup?_eq_none.mpr hc]
      rfl
  | _, _, .branch known ht hu hc h, .record hk hd, path => by
      refine (item_record_eq_ok hk).mpr ⟨known, ht, hu, ?_⟩
      rw [childrenField_eq, (lookup?_eq_some hk).mpr hc]
      exact h.itemsFrom_eq (by cases hd _ hc with | sequence h => exact h) path 0

theorem AreItems.itemsFrom_eq : {vs : List Value} → {xs : List Item} → AreItems vs xs →
    (∀ v ∈ vs, v.Distinct) → ∀ path i, itemsFrom path i vs = .ok xs
  | _, _, .nil, _, path, i => rfl
  | _, _, .cons h t, hd, path, i => by
      rw [List.forall_mem_cons] at hd
      rw [itemsFrom, h.item_eq hd.1, ok_bind, t.itemsFrom_eq hd.2]
      rfl

end

/-! ### Outlines -/

theorem areItems_iff {vs : List Value} {xs : List Item} (hd : ∀ v ∈ vs, v.Distinct) {path : Path}
    {i : Nat} : itemsFrom path i vs = .ok xs ↔ AreItems vs xs :=
  ⟨itemsFrom_sound fun v hv => (sound (hd v hv)).1, fun h => h.itemsFrom_eq hd path i⟩

/-- A record whose only possible key is `children`. -/
theorem eq_singleton {k : String} {fs : List (String × Value)} (hk : (fs.map (·.1)).Nodup)
    (known : ∀ f ∈ fs, f.1 ∈ [k]) : fs = [] ∨ ∃ v, fs = [(k, v)] := by
  match fs with
  | [] => exact .inl rfl
  | [(k', v)] =>
      obtain rfl : k' = k := by simpa using known
      exact .inr ⟨v, rfl⟩
  | (k₁, v₁) :: (k₂, v₂) :: fs =>
      have e₁ : k₁ = k := by simpa using known (k₁, v₁) (by simp)
      have e₂ : k₂ = k := by simpa using known (k₂, v₂) (by simp)
      simp [e₁, e₂] at hk

/-- The values that are outlines, and which. -/
theorem ofValue_eq_ok {v : Value} {o : Outline} (hd : v.Distinct) :
    Outline.ofValue v = .ok o ↔ IsOutline v o := by
  constructor
  · intro h
    unfold Outline.ofValue at h
    split at h
    · obtain _ | _ | _ | _ | _ | ⟨hk, hd⟩ := hd
      split at h
      · exact nomatch h
      rename_i known
      obtain ⟨xs, hx, rfl⟩ := map_eq_ok.mp h
      rcases eq_singleton hk (unknownKey?_eq_none.mp known) with rfl | ⟨v, rfl⟩
      · obtain rfl := Except.ok.inj hx
        exact .empty
      · rw [childrenField, if_pos rfl] at hx
        obtain ⟨vs, rfl, hvs⟩ := (sound (hd _ List.mem_cons_self)).2 hx
        exact .record hvs
    · obtain _ | _ | _ | _ | hd | _ := hd
      obtain ⟨xs, hx, rfl⟩ := map_eq_ok.mp h
      exact .sequence ((areItems_iff hd).mp hx)
    · exact nomatch h
  · rintro (h | _ | h)
    · obtain _ | _ | _ | _ | hd | _ := hd
      exact map_eq_ok.mpr ⟨_, (areItems_iff hd).mpr h, rfl⟩
    · rfl
    · obtain _ | _ | _ | _ | _ | ⟨-, hd⟩ := hd
      obtain _ | _ | _ | _ | hd | _ := hd _ List.mem_cons_self
      exact map_eq_ok.mpr ⟨_, (areItems_iff hd).mpr h, rfl⟩

/-! ### What outlines are written with -/

/-- A value under one of the three keys of an item record is the one that the record is to have
there. -/
theorem plain_of_known {fs : List (String × Value)} {text url : String}
    (hk : (fs.map (·.1)).Nodup) (known : ∀ f ∈ fs, f.1 ∈ itemKeys)
    (ht : ("text", .string text) ∈ fs) (hu : ("url", .string url) ∈ fs)
    (hc : ∀ v, ("children", v) ∈ fs → v.Plain) : (Value.record fs).Plain := by
  refine .record hk fun (k, v) hf => ?_
  have hk' : k ∈ ["text", "url", "children"] := known _ hf
  simp only [List.mem_cons, List.not_mem_nil, or_false] at hk'
  rcases hk' with rfl | rfl | rfl
  · rw [Value.value_eq_of_mem hk hf ht]; exact .string text
  · rw [Value.value_eq_of_mem hk hf hu]; exact .string url
  · exact hc v hf

mutual

theorem IsItem.plain : {v : Value} → {x : Item} → IsItem v x → v.Distinct → v.Plain
  | _, _, .leaf known ht hu hc, .record hk hd =>
      plain_of_known hk known ht hu fun v hv => absurd hv (hc v)
  | _, _, .branch known ht hu hc h, .record hk hd => by
      refine plain_of_known hk known ht hu fun v hv => ?_
      rw [Value.value_eq_of_mem hk hv hc]
      exact .sequence (h.plain (by cases hd _ hc with | sequence h => exact h))

theorem AreItems.plain : {vs : List Value} → {xs : List Item} → AreItems vs xs →
    (∀ v ∈ vs, v.Distinct) → ∀ v ∈ vs, v.Plain
  | _, _, .nil, _ => by simp
  | _, _, .cons h t, hd => by
      rw [List.forall_mem_cons] at hd ⊢
      exact ⟨h.plain hd.1, t.plain hd.2⟩

end

theorem IsOutline.plain {v : Value} {o : Outline} (h : IsOutline v o) (hd : v.Distinct) :
    v.Plain := by
  obtain h | _ | h := h
  · obtain _ | _ | _ | _ | hd | _ := hd
    exact .sequence (h.plain hd)
  · exact .record (by simp) (by simp)
  · obtain _ | _ | _ | _ | _ | ⟨hk, hd⟩ := hd
    obtain _ | _ | _ | _ | hd | _ := hd _ List.mem_cons_self
    exact .record hk (by simpa using .sequence (h.plain hd))

end Sidebar.Shape
