import Sidebar.Value

/-!
# Value — keys, and the values of scripts

The readers of records remember the keys they have `seen` and refuse one that comes again, so the
values they give have no key twice in one record (`Distinct`).  The values of menu scripts are of
three shapes only (`Plain`).

* `unseen_cons`: the keys of all fields differ when each is none of those seen before it.
* `value_eq_of_mem`: where keys differ, a key has one value.
-/

namespace Sidebar.Value

variable {f : String × Value} {fs : List (String × Value)} {seen : List String}

/-- The keys of some fields differ, and differ from those seen before. -/
def Unseen (seen : List String) (fs : List (String × Value)) : Prop :=
  (fs.map (·.1)).Nodup ∧ ∀ f ∈ fs, f.1 ∉ seen

theorem unseen_nil : Unseen seen [] := by simp [Unseen]

theorem unseen_cons : Unseen seen (f :: fs) ↔ f.1 ∉ seen ∧ Unseen (f.1 :: seen) fs := by
  unfold Unseen
  rw [List.map_cons, List.nodup_cons, List.forall_mem_cons]
  simp only [List.mem_map, List.mem_cons, not_or]
  constructor
  · rintro ⟨⟨hf, hd⟩, hk, hs⟩
    exact ⟨hk, hd, fun g hg => ⟨fun e => hf ⟨g, hg, e⟩, hs g hg⟩⟩
  · rintro ⟨hk, hd, hs⟩
    exact ⟨⟨fun ⟨g, hg, e⟩ => (hs g hg).1 e, hd⟩, hk, fun g hg => (hs g hg).2⟩

theorem unseen_empty : Unseen [] fs ↔ (fs.map (·.1)).Nodup := by simp [Unseen]

theorem value_eq_of_mem {k : String} {v w : Value} (hd : (fs.map (·.1)).Nodup)
    (hv : (k, v) ∈ fs) (hw : (k, w) ∈ fs) : v = w := by
  induction fs with
  | nil => exact absurd hv (List.not_mem_nil)
  | cons f fs ih =>
      rw [List.map_cons, List.nodup_cons] at hd
      have fresh : ∀ {u}, (k, u) ∈ fs → k ≠ f.1 := by
        rintro u hu rfl
        exact hd.1 (List.mem_map.mpr ⟨_, hu, rfl⟩)
      rcases List.mem_cons.mp hv with rfl | hv'
      · rcases List.mem_cons.mp hw with e | hw'
        · exact (Prod.mk.inj e).2.symm
        · exact absurd rfl (fresh hw')
      · rcases List.mem_cons.mp hw with rfl | hw'
        · exact absurd rfl (fresh hv')
        · exact ih hd.2 hv' hw'

/-! ### Values without a repeated key -/

/-- No record at any depth has a key twice. -/
inductive Distinct : Value → Prop where
  | null : Distinct .null
  | boolean (b : Bool) : Distinct (.boolean b)
  | number (n : Decimal) : Distinct (.number n)
  | string (s : String) : Distinct (.string s)
  | sequence {vs : List Value} (h : ∀ v ∈ vs, Distinct v) : Distinct (.sequence vs)
  | record {fs : List (String × Value)} (keys : (fs.map (·.1)).Nodup)
      (h : ∀ f ∈ fs, Distinct f.2) : Distinct (.record fs)

/-- Strings, sequences and records, without a repeated key. -/
inductive Plain : Value → Prop where
  | string (s : String) : Plain (.string s)
  | sequence {vs : List Value} (h : ∀ v ∈ vs, Plain v) : Plain (.sequence vs)
  | record {fs : List (String × Value)} (keys : (fs.map (·.1)).Nodup)
      (h : ∀ f ∈ fs, Plain f.2) : Plain (.record fs)

theorem Plain.distinct {v : Value} (h : v.Plain) : v.Distinct := by
  induction h with
  | string s => exact .string s
  | sequence _ ih => exact .sequence ih
  | record hk _ ih => exact .record hk ih

end Sidebar.Value
