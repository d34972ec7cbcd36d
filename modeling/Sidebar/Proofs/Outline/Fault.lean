import Sidebar.Proofs.Outline.Place
import Sidebar.Proofs.Outline.Shape
import Sidebar.Proofs.Text.ByteOrder

/-!
# Outline — what can be wrong with a value

A value that is no outline is refused for one reason at one place.  `Fault l v r`: the reason `r`
applies to `v` itself, whatever is wrong below it.  `Blames v p r`: nothing is wrong with what comes
before the place `p` of `v` in reading order, and `r` is the first reason that applies there.

* `Blames.unique`: a value is blamed for one reason at one place.
* `Fault.of_record`: what can be wrong with a record.
-/

namespace Sidebar.Shape

open Sidebar.Text

/-! ### Places -/

/-- A value stands at the top, where it should be an outline, or below, where it should be an
item. -/
inductive Level where
  | top
  | item
deriving DecidableEq

/-- A value and what it should be. -/
structure Slot where
  level : Level
  value : Value

/-- The values right below a value, each of which should be an item: those of a sequence at the
top, or of the sequence under the key `children`. -/
def Slot.below : Slot → List Slot
  | ⟨.top, .sequence vs⟩ => vs.map (Slot.mk .item)
  | ⟨_, .record fs⟩      =>
    match lookup? "children" fs with
    | some (.sequence vs) => vs.map (Slot.mk .item)
    | _                   => []
  | _                    => []

/-! ### Reasons -/

/-- The keys that a record may have. -/
def Level.keys : Level → List String
  | .top  => ["children"]
  | .item => itemKeys

/-- The keys under which a record has a string. -/
def Level.required : Level → List String
  | .top  => []
  | .item => ["text", "url"]

/-- The reason applies to the value itself. -/
inductive Fault : Level → Value → Reason → Prop where
  | notARecord {l : Level} {v : Value} (hr : ∀ fs, v ≠ .record fs)
      (hs : l = .top → ∀ vs, v ≠ .sequence vs) : Fault l v (.notARecord v.kind)
  | unknownKey {l : Level} {fs : List (String × Value)} {key : String}
      (present : key ∈ fs.map (·.1)) (unknown : key ∉ l.keys)
      (least : ∀ k ∈ fs.map (·.1), k ∉ l.keys → utf8 key ≤ utf8 k) :
      Fault l (.record fs) (.unknownKey key)
  | missingKey {l : Level} {fs : List (String × Value)} {key : String} (hk : key ∈ l.required)
      (absent : key ∉ fs.map (·.1)) : Fault l (.record fs) (.missingKey key)
  | notAString {l : Level} {fs : List (String × Value)} {key : String} {v : Value}
      (hk : key ∈ l.required) (present : (key, v) ∈ fs) (hv : ∀ s, v ≠ .string s) :
      Fault l (.record fs) (.notAString key v.kind)
  | childrenNotASequence {l : Level} {fs : List (String × Value)} {v : Value}
      (present : ("children", v) ∈ fs) (hv : ∀ vs, v ≠ .sequence vs) :
      Fault l (.record fs) (.childrenNotASequence v.kind)

/-- Something is wrong with the value itself. -/
def Slot.Faulty (s : Slot) : Prop := ∃ r, Fault s.level s.value r

/-- The label is checked before the address. -/
def keyRank (key : String) : Nat := if key = "text" then 2 else 3

/-- The place of a reason in the order of the checks. -/
def rank : Reason → Nat
  | .notARecord _           => 0
  | .unknownKey _           => 1
  | .missingKey key         => keyRank key
  | .notAString key _       => keyRank key
  | .childrenNotASequence _ => 4
  | .emptyText              => 5

/-- The reason is the first that applies to the value. -/
def First (s : Slot) (r : Reason) : Prop :=
  Fault s.level s.value r ∧ ∀ r', Fault s.level s.value r' → rank r ≤ rank r'

/-- The place `p` of the value `v` is the first at which something is wrong, and `r` is the first
reason there. -/
def Blames (v : Value) (p : Path) (r : Reason) : Prop :=
  ∃ s, FirstAt Slot.below Slot.Faulty ⟨.top, v⟩ p s ∧ First s r

/-! ### Records -/

section
variable {l : Level} {fs : List (String × Value)} {r : Reason}

theorem keyRank_bounds (key : String) : 2 ≤ keyRank key ∧ keyRank key ≤ 3 := by
  unfold keyRank; split <;> decide

/-- The two required keys have different ranks. -/
theorem keyRank_inj {k k' : String} (hk : k ∈ l.required) (hk' : k' ∈ l.required)
    (e : keyRank k = keyRank k') : k = k' := by
  cases l with
  | top => exact absurd hk List.not_mem_nil
  | item =>
      simp only [Level.required, List.mem_cons, List.not_mem_nil, or_false] at hk hk'
      rcases hk with rfl | rfl <;> rcases hk' with rfl | rfl <;> simp [keyRank] at e ⊢

/-- What can be wrong with a record itself. -/
theorem Fault.of_record (hd : (Value.record fs).Distinct) (h : Fault l (.record fs) r) :
    (rank r = 1 ∧ ∃ f ∈ fs, f.1 ∉ l.keys) ∨
    (∃ key ∈ l.required, rank r = keyRank key ∧ ∀ s, lookup? key fs ≠ some (.string s)) ∨
    (rank r = 4 ∧ ∃ v, lookup? "children" fs = some v ∧ ∀ vs, v ≠ .sequence vs) := by
  obtain _ | _ | _ | _ | _ | ⟨keys, -⟩ := hd
  cases h with
  | notARecord hr => exact absurd rfl (hr fs)
  | unknownKey present unknown =>
      obtain ⟨f, hf, rfl⟩ := List.mem_map.mp present
      exact .inl ⟨rfl, f, hf, unknown⟩
  | missingKey hk absent =>
      refine .inr (.inl ⟨_, hk, rfl, fun s hs => absent ?_⟩)
      exact List.mem_map.mpr ⟨_, mem_of_lookup? hs, rfl⟩
  | notAString hk present hv =>
      refine .inr (.inl ⟨_, hk, rfl, fun s hs => hv s ?_⟩)
      exact Value.value_eq_of_mem keys present (mem_of_lookup? hs)
  | childrenNotASequence present hv =>
      exact .inr (.inr ⟨rfl, _, (lookup?_eq_some keys).mpr present, hv⟩)

end

/-! ### One reason at one place -/

theorem Fault.eq_of_rank_eq {l : Level} {v : Value} {r r' : Reason} (hd : v.Distinct)
    (h : Fault l v r) (h' : Fault l v r') (e : rank r = rank r') : r = r' := by
  cases h with
  | notARecord hr => cases h' with
    | notARecord => rfl
    | _ => exact absurd rfl (hr _)
  | unknownKey hp hu least => cases h' with
    | notARecord hr => exact absurd rfl (hr _)
    | unknownKey hp' hu' least' =>
        rw [String.le_antisymm (utf8_le_iff.mp (least _ hp' hu'))
          (utf8_le_iff.mp (least' _ hp hu))]
    | _ => grind [rank, keyRank]
  | missingKey hk absent => cases h' with
    | notARecord hr => exact absurd rfl (hr _)
    | missingKey hk' => rw [keyRank_inj hk hk' e]
    | notAString hk' present =>
        obtain rfl := keyRank_inj hk hk' e
        exact absurd (List.mem_map.mpr ⟨_, present, rfl⟩) absent
    | _ => grind [rank, keyRank]
  | notAString hk present => cases h' with
    | notARecord hr => exact absurd rfl (hr _)
    | missingKey hk' absent =>
        obtain rfl := keyRank_inj hk hk' e
        exact absurd (List.mem_map.mpr ⟨_, present, rfl⟩) absent
    | notAString hk' present' =>
        obtain rfl := keyRank_inj hk hk' e
        obtain _ | _ | _ | _ | _ | ⟨keys, -⟩ := hd
        rw [Value.value_eq_of_mem keys present present']
    | _ => grind [rank, keyRank]
  | childrenNotASequence present => cases h' with
    | notARecord hr => exact absurd rfl (hr _)
    | childrenNotASequence present' =>
        obtain _ | _ | _ | _ | _ | ⟨keys, -⟩ := hd
        rw [Value.value_eq_of_mem keys present present']
    | _ => grind [rank, keyRank]

theorem Slot.distinct_of_mem_below {s t : Slot} (hd : s.value.Distinct) (h : t ∈ s.below) :
    t.value.Distinct := by
  unfold Slot.below at h
  split at h
  · obtain ⟨v, hv, rfl⟩ := List.mem_map.mp h
    obtain _ | _ | _ | _ | hd | _ := hd
    exact hd v hv
  · split at h
    · rename_i hc
      obtain ⟨v, hv, rfl⟩ := List.mem_map.mp h
      obtain _ | _ | _ | _ | _ | ⟨-, hd⟩ := hd
      obtain _ | _ | _ | _ | hd | _ := hd _ (mem_of_lookup? hc)
      exact hd v hv
    · exact absurd h List.not_mem_nil
  · exact absurd h List.not_mem_nil

theorem distinct_of_follow {s t : Slot} {p : Path} (hd : s.value.Distinct)
    (h : Path.follow Slot.below s p = some t) : t.value.Distinct := by
  induction p generalizing s with
  | nil => exact Option.some.inj h ▸ hd
  | cons i p ih =>
      obtain ⟨u, hu, ht⟩ := follow_cons_eq_some.mp h
      exact ih (Slot.distinct_of_mem_below hd (List.mem_of_getElem? hu)) ht

/-- A value is blamed for one reason at one place. -/
theorem Blames.unique {v : Value} {p p' : Path} {r r' : Reason} (hd : v.Distinct)
    (h : Blames v p r) (h' : Blames v p' r') : p = p' ∧ r = r' := by
  obtain ⟨s, hs, fault, first⟩ := h
  obtain ⟨s', hs', fault', first'⟩ := h'
  obtain ⟨rfl, rfl⟩ := hs.unique hs'
  refine ⟨rfl, fault.eq_of_rank_eq (distinct_of_follow hd hs.leads) fault' ?_⟩
  exact Nat.le_antisymm (first r' fault') (first' r fault)

end Sidebar.Shape
