import Sidebar.Proofs.Json.Blame
import Sidebar.Proofs.Json.Follow
import Sidebar.Proofs.Json.Wording

/-!
# Json — the first repeated key

Reading a document from the left, the first fault may be that a key has come before in its record.
Up to that key the text is as the grammar wants it: sequences and records have been opened, items
and fields in front have been read as a whole, and nothing behind the key matters.

* `Repeats`: from a place in a document, the first fault is that a key has come before.
* `Repeats.follow`: any text may follow the key.
* `Repeats.blamed`: the reader blames the key.
* `repeats_of_value`: and it blames no other.
* `parse_strict`: what is read of a document, and what is told of a repeated key.
-/

namespace Sidebar.Json

open Sidebar.Text

/-- A place in a document: in front of a value, of an item, or of a field behind some keys. -/
inductive Place where
  | value
  | item
  | field (seen : List String)

/-- Reading on from a place with so many levels still allowed, the first fault is that the key `k`
has come before in its record. -/
inductive Repeats (k : String) : Place → Nat → List Char → Prop where
  | sequence {levels : Nat} {s : List Char} (h : Repeats k .item levels s) :
      Repeats k .value (levels + 1) ('[' :: s)
  | record {levels : Nat} {s : List Char} (h : Repeats k (.field []) levels s) :
      Repeats k .value (levels + 1) ('{' :: s)
  | item {levels : Nat} {s s₁ : List Char} (g : Space s s₁) (h : Repeats k .value levels s₁) :
      Repeats k .item levels s
  | nextItem {levels : Nat} {s s₁ s₂ s₃ : List Char} {v : Value} (g : Space s s₁)
      (hv : Denotes s₁ v s₂) (hn : v.nesting ≤ levels) (g' : Space s₂ (',' :: s₃))
      (h : Repeats k .item levels s₃) : Repeats k .item levels s
  | key {levels : Nat} {seen : List String} {s s₁ r : List Char} (g : Space s s₁)
      (hk : Quoted s₁ k r) (old : k ∈ seen) : Repeats k (.field seen) levels s
  | field {levels : Nat} {seen : List String} {s s₁ s₂ s₃ s₄ : List Char} {k' : String}
      (g : Space s s₁) (hk : Quoted s₁ k' s₂) (new : k' ∉ seen) (g₁ : Space s₂ (':' :: s₃))
      (g₂ : Space s₃ s₄) (h : Repeats k .value levels s₄) : Repeats k (.field seen) levels s
  | nextField {levels : Nat} {seen : List String} {s s₁ s₂ s₃ : List Char} {f : String × Value}
      (g : Space s s₁) (hf : Field s₁ f s₂) (new : f.1 ∉ seen) (hn : f.2.nesting ≤ levels)
      (g' : Space s₂ (',' :: s₃)) (h : Repeats k (.field (f.1 :: seen)) levels s₃) :
      Repeats k (.field seen) levels s

/-- The first fault of a whole document is that the key `k` has come before in its record. -/
def RepeatsFirst (s : List Char) (k : String) : Prop :=
  ∃ s₁, Space s s₁ ∧ Repeats k .value maxNesting s₁

variable {k : String}

/-! ### What follows the key -/

/-- The text is some text in front of the key, the key as it is spelled, and some text that may as
well be any other. -/
theorem Repeats.follow {p : Place} {levels : Nat} {s : List Char} (h : Repeats k p levels s) :
    ∃ before key after, s = before ++ (key ++ after) ∧ (∀ r, Quoted (key ++ r) k r) ∧
      ∀ other, Repeats k p levels (before ++ (key ++ other)) := by
  induction h with
  | sequence _ ih =>
      obtain ⟨before, key, after, rfl, hk, follow⟩ := ih
      exact ⟨'[' :: before, key, after, rfl, hk, fun other => .sequence (follow other)⟩
  | record _ ih =>
      obtain ⟨before, key, after, rfl, hk, follow⟩ := ih
      exact ⟨'{' :: before, key, after, rfl, hk, fun other => .record (follow other)⟩
  | item g _ ih =>
      obtain ⟨before, key, after, rfl, hk, follow⟩ := ih
      obtain ⟨w, hw, rfl⟩ := g
      refine ⟨w ++ before, key, after, by simp, hk, fun other => .item ⟨w, hw, ?_⟩ (follow other)⟩
      rw [List.append_assoc]
  | nextItem g hv hn g' _ ih =>
      obtain ⟨before, key, after, rfl, hk, follow⟩ := ih
      obtain ⟨w', hw', rfl⟩ := g'
      obtain ⟨q, rfl, followed⟩ := hv.follow
      obtain ⟨w, hw, rfl⟩ := g
      refine ⟨w ++ (q ++ (w' ++ ',' :: before)), key, after, by simp, hk, fun other =>
        .nextItem ⟨w, hw, ?_⟩ (followed (w' ++ ',' :: (before ++ (key ++ other))) ?_) hn
          ⟨w', hw', rfl⟩ (follow other)⟩
      · simp only [List.append_assoc, List.cons_append]
      · exact head?_append_congr w' rfl
  | key g hk old =>
      obtain ⟨key, rfl, quoted⟩ := hk.follow
      obtain ⟨w, hw, rfl⟩ := g
      exact ⟨w, key, _, rfl, quoted, fun other => .key ⟨w, hw, rfl⟩ (quoted other) old⟩
  | field g hk' new g₁ g₂ _ ih =>
      obtain ⟨before, key, after, rfl, hk, follow⟩ := ih
      obtain ⟨w₂, hw₂, rfl⟩ := g₂
      obtain ⟨w₁, hw₁, rfl⟩ := g₁
      obtain ⟨key', rfl, quoted⟩ := hk'.follow
      obtain ⟨w, hw, rfl⟩ := g
      refine ⟨w ++ (key' ++ (w₁ ++ ':' :: (w₂ ++ before))), key, after, by simp, hk, fun other =>
        .field ⟨w, hw, ?_⟩ (quoted (w₁ ++ ':' :: (w₂ ++ (before ++ (key ++ other))))) new
          ⟨w₁, hw₁, rfl⟩ ⟨w₂, hw₂, rfl⟩ (follow other)⟩
      simp only [List.append_assoc, List.cons_append]
  | nextField g hf new hn g' _ ih =>
      obtain ⟨before, key, after, rfl, hk, follow⟩ := ih
      obtain ⟨w', hw', rfl⟩ := g'
      obtain ⟨q, rfl, followed⟩ := hf.follow
      obtain ⟨w, hw, rfl⟩ := g
      refine ⟨w ++ (q ++ (w' ++ ',' :: before)), key, after, by simp, hk, fun other =>
        .nextField ⟨w, hw, ?_⟩ (followed (w' ++ ',' :: (before ++ (key ++ other))) ?_) new hn
          ⟨w', hw', rfl⟩ (follow other)⟩
      · simp only [List.append_assoc, List.cons_append]
      · exact head?_append_congr w' rfl

theorem RepeatsFirst.follow {s : List Char} (h : RepeatsFirst s k) :
    ∃ before key after, s = before ++ (key ++ after) ∧ (∀ r, Quoted (key ++ r) k r) ∧
      ∀ other, RepeatsFirst (before ++ (key ++ other)) k := by
  obtain ⟨s₁, ⟨w, hw, rfl⟩, h⟩ := h
  obtain ⟨before, key, after, rfl, hk, follow⟩ := h.follow
  refine ⟨w ++ before, key, after, by simp, hk, fun other => ⟨_, ⟨w, hw, ?_⟩, follow other⟩⟩
  rw [List.append_assoc]

/-! ### The reader blames the key -/

theorem Repeats.opens {levels : Nat} {s : List Char} (h : Repeats k .value levels s) :
    Opens s := by
  cases h with
  | sequence => exact opens_mark (by decide)
  | record => exact opens_mark (by decide)

/-- Blanks in front of an item do not matter. -/
theorem Repeats.item_space {levels : Nat} {s s₁ : List Char} (h : Repeats k .item levels s₁)
    (g : Space s s₁) : Repeats k .item levels s := by
  cases h with
  | item g' h => exact .item (g.trans g') h
  | nextItem g' hv hn g'' h => exact .nextItem (g.trans g') hv hn g'' h

/-- Blanks in front of a field do not matter. -/
theorem Repeats.field_space {seen : List String} {levels : Nat} {s s₁ : List Char}
    (h : Repeats k (.field seen) levels s₁) (g : Space s s₁) :
    Repeats k (.field seen) levels s := by
  cases h with
  | key g' hk old => exact .key (g.trans g') hk old
  | field g' hk new g₁ g₂ h => exact .field (g.trans g') hk new g₁ g₂ h
  | nextField g' hf new hn g'' h => exact .nextField (g.trans g') hf new hn g'' h

/-- What the reader does from a place, `size` and `n` being above the length of the text. -/
def Place.Blamed (k : String) (levels : Nat) (s : List Char) (size : Nat) : Place → Prop
  | value => Blames k (Json.value size levels s)
  | item => ∃ s₁, skipSpace s = s₁ ∧ s₁ ≠ [] ∧ (∀ t, s₁ ≠ ']' :: t) ∧ ∀ n, s.length < n →
      Blames k (Json.value size levels s₁ >>= fun (v, s) =>
        moreItems (fun s => Json.value size levels s) n s >>= fun (vs, s) => .ok (v :: vs, s))
  | field seen => ∃ t, skipSpace s = '"' :: t ∧ ∀ n, s.length < n →
      Blames k (Json.field size (fun s => Json.value size levels s) seen t >>= fun (f, s) =>
        moreFields size (fun s => Json.value size levels s) n (f.1 :: seen) s >>= fun (fs, s) =>
          .ok (f :: fs, s))

/-- From a place in front of the repeated key, the reader comes to blame it. -/
theorem Repeats.blamed {p : Place} {levels size : Nat} {s : List Char} (h : Repeats k p levels s)
    (hs : s.length < size) : p.Blamed k levels s size := by
  induction h with
  | @sequence levels s h ih =>
      rw [List.length_cons] at hs
      obtain ⟨s₁, g, ne, nc, blames⟩ := ih (by omega)
      rw [Place.Blamed, Json.value, (Space.refl _).skipSpace_eq (settled_mark (by decide))]
      simp only
      rw [items_of_ne g ne nc]
      exact (blames size (by omega)).bind _
  | @record levels s h ih =>
      rw [List.length_cons] at hs
      obtain ⟨t, g, blames⟩ := ih (by omega)
      rw [Place.Blamed, Json.value, (Space.refl _).skipSpace_eq (settled_mark (by decide))]
      simp only
      rw [fields, g]
      exact (blames size (by omega)).bind _
  | @item levels s s₁ g h ih =>
      have := g.length_le
      exact ⟨_, g.skipSpace_eq h.opens.settled, h.opens.ne_nil, fun t => h.opens.ne_close,
        fun n _ => (ih (by omega)).bind _⟩
  | @nextItem levels s s₁ s₂ s₃ v g hv hn g' h ih =>
      have := g.length_le; have := hv.length_lt; have := g'.length_le
      rw [List.length_cons] at this
      obtain ⟨s₄, g₄, ne, nc, blames⟩ := ih (by omega)
      refine ⟨s₁, g.skipSpace_eq hv.opens.settled, hv.opens.ne_nil, fun t => hv.opens.ne_close,
        fun n hn' => ?_⟩
      obtain ⟨n, rfl⟩ := Nat.exists_eq_succ_of_ne_zero (Nat.ne_of_gt (Nat.zero_lt_of_lt hn'))
      rw [hv.value_eq (by omega) hn, ok_bind]
      dsimp only
      rw [moreItems_of_ne (g'.skipSpace_eq (settled_mark (by decide))) g₄ nc]
      exact (blames n (by omega)).bind _
  | @key levels seen s s₁ r g hk old =>
      have := g.length_le
      obtain ⟨t, rfl⟩ := hk.eq_cons
      rw [List.length_cons] at this
      refine ⟨t, g.skipSpace_eq (settled_mark (by decide)), fun n hn => Blames.bind ?_ _⟩
      rw [Json.field, quoted_complete hk (by omega), ok_bind]
      simp only [if_pos old]
      exact blames_repeated k r
  | @field levels seen s s₁ s₂ s₃ s₄ k' g hk new g₁ g₂ h ih =>
      have := g.length_le; have := hk.length_lt; have := g₁.length_le; have := g₂.length_le
      rw [List.length_cons] at *
      obtain ⟨t, rfl⟩ := hk.eq_cons
      refine ⟨t, g.skipSpace_eq (settled_mark (by decide)), fun n hn => Blames.bind ?_ _⟩
      rw [Json.field, quoted_complete hk (by simp only [List.length_cons] at *; omega), ok_bind]
      simp only [if_neg new, colon_eq_ok.mpr g₁, ok_bind]
      rw [value_space g₂ h.opens.settled]
      exact (ih (by omega)).bind _
  | @nextField levels seen s s₁ s₂ s₃ f g hf new hn g' h ih =>
      have := g.length_le; have := hf.length_lt; have := g'.length_le
      rw [List.length_cons] at this
      obtain ⟨t, g₄, blames⟩ := ih (by omega)
      obtain ⟨u, rfl, read⟩ := hf.field_eq size levels seen (by omega) hn new
      refine ⟨u, g.skipSpace_eq (settled_mark (by decide)), fun n hn' => ?_⟩
      obtain ⟨n, rfl⟩ := Nat.exists_eq_succ_of_ne_zero (Nat.ne_of_gt (Nat.zero_lt_of_lt hn'))
      rw [read, ok_bind]
      dsimp only
      rw [moreFields, g'.skipSpace_eq (settled_mark (by decide))]
      simp only [g₄]
      exact (blames n (by omega)).bind _

/-! ### The reader blames no other key -/

section
variable {item : Reader Value} {levels size : Nat}
  (sound : ∀ {s v r}, item s = .ok (v, r) →
    ∃ s₁, Space s s₁ ∧ Denotes s₁ v r ∧ v.nesting ≤ levels)
  (repeats : ∀ {s}, Blames k (item s) → ∃ s₁, Space s s₁ ∧ Repeats k .value levels s₁)

include sound repeats

/-- An item, and more of them behind it. -/
theorem repeats_of_item {n : Nat} {s : List Char}
    (more : ∀ {s}, Blames k (moreItems item n s) →
      ∃ s₁, Space s (',' :: s₁) ∧ Repeats k .item levels s₁)
    (h : Blames k (item s >>= fun (v, s) => moreItems item n s >>= fun (vs, s) =>
      (.ok (v :: vs, s) : Except Fault (List Value × List Char)))) : Repeats k .item levels s := by
  rcases blames_bind h with h | ⟨⟨v, s₁⟩, hv, h⟩
  · obtain ⟨s₁, g, h⟩ := repeats h
    exact .item g h
  · obtain ⟨s₂, g, hv, hn⟩ := sound hv
    rcases blames_bind h with h | ⟨_, -, h⟩
    · obtain ⟨s₃, g', h⟩ := more h
      exact .nextItem g hv hn g' h
    · exact absurd h (Keyless.ok _).not_blames

theorem repeats_of_moreItems {n : Nat} {s : List Char} (h : Blames k (moreItems item n s)) :
    ∃ s₁, Space s (',' :: s₁) ∧ Repeats k .item levels s₁ := by
  induction n generalizing s with
  | zero => exact absurd h (Keyless.error rfl).not_blames
  | succ n ih =>
      rw [moreItems] at h
      split at h
      · exact absurd h (Keyless.ok _).not_blames
      · rename_i g
        refine ⟨_, space_of_skipSpace g, ?_⟩
        split at h
        · exact absurd h (Keyless.error rfl).not_blames
        · exact (repeats_of_item sound repeats ih h).item_space (space_skipSpace _)
      · exact absurd h (keyless_stopBefore rfl rfl _).not_blames

theorem repeats_of_items {s : List Char} (h : Blames k (items size item s)) :
    Repeats k .item levels s := by
  unfold items at h
  split at h
  · exact absurd h (Keyless.error rfl).not_blames
  · exact absurd h (Keyless.ok _).not_blames
  · exact (repeats_of_item sound repeats (repeats_of_moreItems sound repeats) h).item_space
      (space_skipSpace s)

/-- A field, and more of them behind it. -/
theorem repeats_of_field {n : Nat} {seen : List String} {s : List Char}
    (more : ∀ {seen s}, Blames k (moreFields size item n seen s) →
      ∃ s₁, Space s (',' :: s₁) ∧ Repeats k (.field seen) levels s₁)
    (h : Blames k (field size item seen s >>= fun (f, s) =>
      moreFields size item n (f.1 :: seen) s >>= fun (fs, s) =>
        (.ok (f :: fs, s) : Except Fault (List (String × Value) × List Char)))) :
    Repeats k (.field seen) levels ('"' :: s) := by
  rcases blames_bind h with h | ⟨⟨f, s₁⟩, hf, h⟩
  · rcases blames_bind h with h | ⟨⟨k', s₁⟩, hk, h⟩
    · exact absurd h (keyless_quoted size s).not_blames
    · dsimp only at h
      split at h
      · rename_i old
        obtain rfl := eq_of_blames_repeated h
        exact .key (Space.refl _) (quoted_sound hk) old
      · rename_i new
        rcases blames_bind h with h | ⟨s₂, hc, h⟩
        · exact absurd h (keyless_colon s₁).not_blames
        rcases blames_bind h with h | ⟨_, -, h⟩
        · obtain ⟨s₃, g, h⟩ := repeats h
          exact .field (Space.refl _) (quoted_sound hk) new (colon_eq_ok.mp hc) g h
        · exact absurd h (Keyless.ok _).not_blames
  · obtain ⟨hf, hn, new⟩ := field_sound sound hf
    rcases blames_bind h with h | ⟨_, -, h⟩
    · obtain ⟨s₂, g, h⟩ := more h
      exact .nextField (Space.refl _) hf new hn g h
    · exact absurd h (Keyless.ok _).not_blames

theorem repeats_of_moreFields {n : Nat} {seen : List String} {s : List Char}
    (h : Blames k (moreFields size item n seen s)) :
    ∃ s₁, Space s (',' :: s₁) ∧ Repeats k (.field seen) levels s₁ := by
  induction n generalizing s seen with
  | zero => exact absurd h (Keyless.error rfl).not_blames
  | succ n ih =>
      rw [moreFields] at h
      split at h
      · exact absurd h (Keyless.ok _).not_blames
      · rename_i g
        refine ⟨_, space_of_skipSpace g, ?_⟩
        split at h
        · rename_i g'
          exact (repeats_of_field sound repeats ih h).field_space (space_of_skipSpace g')
        · exact absurd h (Keyless.error rfl).not_blames
        · exact absurd h (keyless_stopBefore rfl rfl _).not_blames
      · exact absurd h (keyless_stopBefore rfl rfl _).not_blames

theorem repeats_of_fields {s : List Char} (h : Blames k (fields size item s)) :
    Repeats k (.field []) levels s := by
  unfold fields at h
  split at h
  · exact absurd h (Keyless.ok _).not_blames
  · rename_i g
    exact (repeats_of_field sound repeats (repeats_of_moreFields sound repeats) h).field_space
      (space_of_skipSpace g)
  · exact absurd h (keyless_stopBefore rfl rfl _).not_blames

end

/-- A key that the reader blames is the first fault. -/
theorem repeats_of_value {size levels : Nat} {s : List Char} (h : Blames k (value size levels s)) :
    ∃ s₁, Space s s₁ ∧ Repeats k .value levels s₁ := by
  induction levels generalizing s with
  | zero =>
      rw [value] at h
      split at h
      · exact absurd h (Keyless.error rfl).not_blames
      · exact absurd h (Keyless.error rfl).not_blames
      · exact absurd h (keyless_scalar size _).not_blames
  | succ levels ih =>
      rw [value] at h
      split at h
      · rename_i g
        rcases blames_bind h with h | ⟨_, -, h⟩
        · exact ⟨_, space_of_skipSpace g, .sequence (repeats_of_items value_sound ih h)⟩
        · exact absurd h (Keyless.ok _).not_blames
      · rename_i g
        rcases blames_bind h with h | ⟨_, -, h⟩
        · exact ⟨_, space_of_skipSpace g, .record (repeats_of_fields value_sound ih h)⟩
        · exact absurd h (Keyless.ok _).not_blames
      · exact absurd h (keyless_scalar size _).not_blames

/-! ### Documents -/

theorem blames_document {s : List Char} : Blames k (document s) ↔ RepeatsFirst s k := by
  constructor
  · intro h
    rcases blames_bind h with h | ⟨⟨v, s₁⟩, -, h⟩
    · exact repeats_of_value h
    · dsimp only at h
      split at h
      · exact absurd h (Keyless.ok _).not_blames
      · exact absurd h (Keyless.error rfl).not_blames
  · rintro ⟨s₁, g, h⟩
    have := g.length_le
    refine Blames.bind ?_ _
    rw [value_space g h.opens.settled]
    exact h.blamed (by omega)

/-- A repeated key is told of where it is the first fault. -/
theorem parse_eq_error {source : String} :
    (∃ place, parse source = .error ⟨"duplicate key `" ++ k ++ "`", place⟩) ↔
      RepeatsFirst source.toList k := by
  rw [← blames_document, parse]
  simp only [mapError_error_iff, told_eq]
  constructor
  · rintro ⟨place, f, hf, e⟩
    have worded : f.cause.message = "duplicate key `" ++ k ++ "`" := congrArg Located.cause e
    obtain ⟨cause, left⟩ := f
    obtain rfl := message_eq_iff.mp worded
    exact ⟨left, hf⟩
  · rintro ⟨b, hb⟩
    exact ⟨_, _, hb, rfl⟩

/-- The reader of documents is that of the plain grammar and the rule that no record repeats a key.
It gives the value of a document of at most 127 levels in which no key is repeated, and no other.
It tells of a repeated key, by exactly these words, where that is the first fault from the left,
whatever the characters of the key; and then it does so whatever follows the key. -/
theorem parse_strict (source : String) :
    (∀ v, parse source = .ok v ↔
      LooseDocument source.toList v ∧ v.Distinct ∧ v.nesting ≤ 127) ∧
    ∀ k, ((∃ place, parse source = .error ⟨"duplicate key `" ++ k ++ "`", place⟩) ↔
        RepeatsFirst source.toList k) ∧
      (RepeatsFirst source.toList k → ∃ before key after,
        source.toList = before ++ (key ++ after) ∧ (∀ r, Quoted (key ++ r) k r) ∧
        ∀ other, ∃ place, parse (String.ofList (before ++ (key ++ other))) =
          .error ⟨"duplicate key `" ++ k ++ "`", place⟩) := by
  refine ⟨fun v => ?_, fun k => ⟨parse_eq_error, fun h => ?_⟩⟩
  · rw [parse, mapError_ok_iff, document_eq_ok, document_iff, and_assoc]
    rfl
  · obtain ⟨before, key, after, e, hk, follow⟩ := h.follow
    refine ⟨before, key, after, e, hk, fun other => parse_eq_error.mpr ?_⟩
    rw [String.toList_ofList]
    exact follow other

/-- A key that reads like a place, spelled in two ways; the text breaks off behind it. -/
example :
    (match parse "[\x7b\" at line 3 column 4\":0,\"\\u0020at line 3 column 4\"" with
      | .error told => some told
      | .ok _       => none) = some ⟨"duplicate key ` at line 3 column 4`", ⟨1, 52⟩⟩ := by
  decide +kernel

end Sidebar.Json
