import Sidebar.Proofs.Json.Value

/-!
# Json — the grammar without the rule on keys

The grammar of JSON documents asks nothing of the keys of a record; that they differ is a rule of
its own.  `Loose` is that grammar, and the documents whose records repeat no key are those of the
strict one.

* `Loose`: a text begins with a phrase: a value, or what is left of a sequence or a record.
* `Loose.unique`: it begins with one phrase of a kind at most.
* `denotes_iff`: the strict grammar is the loose one and the rule.
-/

namespace Sidebar.Json

open Sidebar.Text

/-- A value, a field, and the items or fields up to a closing bracket or brace: all of them, or
those with a comma in front of each. -/
inductive Phrase where
  | value (v : Value)
  | field (f : String × Value)
  | items (vs : List Value)
  | moreItems (vs : List Value)
  | fields (fs : List (String × Value))
  | moreFields (fs : List (String × Value))

/-- A text begins with a phrase.  The keys of a record may be any. -/
inductive Loose : List Char → Phrase → List Char → Prop where
  | scalar {s r : List Char} {v : Value} (h : Denotes s v r) (flat : v.nesting = 0) :
      Loose s (.value v) r
  | sequence {s r : List Char} {vs : List Value} (h : Loose s (.items vs) r) :
      Loose ('[' :: s) (.value (.sequence vs)) r
  | record {s r : List Char} {fs : List (String × Value)} (h : Loose s (.fields fs) r) :
      Loose ('{' :: s) (.value (.record fs)) r
  | noItem {s r : List Char} (g : Space s (']' :: r)) : Loose s (.items []) r
  | firstItem {s s₁ s₂ r : List Char} {v : Value} {vs : List Value} (g : Space s s₁)
      (h : Loose s₁ (.value v) s₂) (t : Loose s₂ (.moreItems vs) r) : Loose s (.items (v :: vs)) r
  | lastItem {s r : List Char} (g : Space s (']' :: r)) : Loose s (.moreItems []) r
  | nextItem {s s₁ s₂ s₃ r : List Char} {v : Value} {vs : List Value} (g₁ : Space s (',' :: s₁))
      (g₂ : Space s₁ s₂) (h : Loose s₂ (.value v) s₃) (t : Loose s₃ (.moreItems vs) r) :
      Loose s (.moreItems (v :: vs)) r
  | field {s s₁ s₂ s₃ r : List Char} {k : String} {v : Value} (hk : Quoted s k s₁)
      (g₁ : Space s₁ (':' :: s₂)) (g₂ : Space s₂ s₃) (h : Loose s₃ (.value v) r) :
      Loose s (.field (k, v)) r
  | noField {s r : List Char} (g : Space s ('}' :: r)) : Loose s (.fields []) r
  | firstField {s s₁ s₂ r : List Char} {f : String × Value} {fs : List (String × Value)}
      (g : Space s s₁) (h : Loose s₁ (.field f) s₂) (t : Loose s₂ (.moreFields fs) r) :
      Loose s (.fields (f :: fs)) r
  | lastField {s r : List Char} (g : Space s ('}' :: r)) : Loose s (.moreFields []) r
  | nextField {s s₁ s₂ s₃ r : List Char} {f : String × Value} {fs : List (String × Value)}
      (g₁ : Space s (',' :: s₁)) (g₂ : Space s₁ s₂) (h : Loose s₂ (.field f) s₃)
      (t : Loose s₃ (.moreFields fs) r) : Loose s (.moreFields (f :: fs)) r

/-- One value between blanks, whatever its keys. -/
def LooseDocument (s : List Char) (v : Value) : Prop :=
  ∃ s₁ s₂, Space s s₁ ∧ Loose s₁ (.value v) s₂ ∧ Space s₂ []

/-! ### One reading at most -/

theorem Quoted.unique {s r r' : List Char} {k k' : String} (h : Quoted s k r)
    (h' : Quoted s k' r') : k = k' ∧ r = r' := by
  obtain ⟨t, rfl⟩ := h.eq_cons
  have e := quoted_complete h (Nat.le_refl _)
  have e' := quoted_complete h' (Nat.le_refl _)
  exact Prod.mk.inj (Except.ok.inj (e.symm.trans e'))

theorem Space.unique {s r r' : List Char} (h : Space s r) (h' : Space s r') (hr : Settled r)
    (hr' : Settled r') : r = r' :=
  (h.skipSpace_eq hr).symm.trans (h'.skipSpace_eq hr')

/-- What stands behind the mark behind the blanks. -/
theorem Space.behind_unique {s r r' : List Char} {c : Char} (g : Space s (c :: r))
    (g' : Space s (c :: r'))
    (hc : c ∈ ['"', ':', ',', '[', ']', '{', '}', '-', 'n', 't', 'f']) : r = r' :=
  (List.cons.inj (g.unique g' (settled_mark hc) (settled_mark hc))).2

/-- Two marks do not stand behind the same blanks. -/
theorem Space.mark_unique {s r r' : List Char} {c c' : Char} (g : Space s (c :: r))
    (g' : Space s (c' :: r'))
    (hc : c ∈ ['"', ':', ',', '[', ']', '{', '}', '-', 'n', 't', 'f'])
    (hc' : c' ∈ ['"', ':', ',', '[', ']', '{', '}', '-', 'n', 't', 'f']) : c = c' :=
  (List.cons.inj (g.unique g' (settled_mark hc) (settled_mark hc'))).1

/-- A value that begins with a bracket is a sequence, one that begins with a brace is a record. -/
theorem Denotes.nesting_ne_zero {s r : List Char} {v : Value} {c : Char}
    (h : Denotes (c :: s) v r) (hc : c = '[' ∨ c = '{') : v.nesting ≠ 0 := by
  have notIn {d : Char} (e : c = d) (hd : d ∈ ['"', '-', 'n', 't', 'f']) : False := by
    subst e
    rcases hc with rfl | rfl <;> exact absurd hd (by decide)
  generalize e : c :: s = u at h
  cases h with
  | null => exact (notIn (List.cons.inj e).1 (by decide)).elim
  | true => exact (notIn (List.cons.inj e).1 (by decide)).elim
  | false => exact (notIn (List.cons.inj e).1 (by decide)).elim
  | negative => exact (notIn (List.cons.inj e).1 (by decide)).elim
  | string h =>
      obtain ⟨t, rfl⟩ := h.eq_cons
      exact (notIn (List.cons.inj e).1 (by decide)).elim
  | number h =>
      obtain ⟨d, t, rfl, hd⟩ := h.eq_cons
      obtain rfl := (List.cons.inj e).1
      rcases hc with rfl | rfl <;> exact absurd hd (by decide)
  | sequence => simp [Value.nesting]
  | record => simp [Value.nesting]

theorem Loose.opens {s r : List Char} {v : Value} (h : Loose s (.value v) r) : Opens s := by
  cases h with
  | scalar h _ => exact h.opens
  | sequence => exact opens_mark (by decide)
  | record => exact opens_mark (by decide)

theorem Loose.field_eq_cons {s r : List Char} {f : String × Value} (h : Loose s (.field f) r) :
    ∃ t, s = '"' :: t := by
  cases h with
  | field hk => exact hk.eq_cons

theorem Loose.field_settled {s r : List Char} {f : String × Value} (h : Loose s (.field f) r) :
    Settled s := by
  obtain ⟨t, rfl⟩ := h.field_eq_cons
  exact settled_mark (by decide)

/-- Two phrases of one kind. -/
inductive Phrase.Alike : Phrase → Phrase → Prop where
  | value (v v' : Value) : Alike (.value v) (.value v')
  | field (f f' : String × Value) : Alike (.field f) (.field f')
  | items (vs vs' : List Value) : Alike (.items vs) (.items vs')
  | moreItems (vs vs' : List Value) : Alike (.moreItems vs) (.moreItems vs')
  | fields (fs fs' : List (String × Value)) : Alike (.fields fs) (.fields fs')
  | moreFields (fs fs' : List (String × Value)) : Alike (.moreFields fs) (.moreFields fs')

/-- A text begins with one phrase of a kind at most. -/
theorem Loose.unique {s r r' : List Char} {p p' : Phrase} (h : Loose s p r) (alike : p.Alike p')
    (h' : Loose s p' r') : p = p' ∧ r = r' := by
  induction h generalizing p' r' with
  | scalar h flat =>
      cases alike
      cases h' with
      | scalar h' _ =>
          obtain ⟨rfl, rfl⟩ := h.unique h'
          exact ⟨rfl, rfl⟩
      | sequence => exact absurd flat (h.nesting_ne_zero (.inl rfl))
      | record => exact absurd flat (h.nesting_ne_zero (.inr rfl))
  | sequence h ih =>
      cases alike
      cases h' with
      | scalar h' flat => exact absurd flat (h'.nesting_ne_zero (.inl rfl))
      | sequence h' =>
          obtain ⟨e, rfl⟩ := ih (.items _ _) h'
          exact ⟨by rw [Phrase.items.inj e], rfl⟩
  | record h ih =>
      cases alike
      cases h' with
      | scalar h' flat => exact absurd flat (h'.nesting_ne_zero (.inr rfl))
      | record h' =>
          obtain ⟨e, rfl⟩ := ih (.fields _ _) h'
          exact ⟨by rw [Phrase.fields.inj e], rfl⟩
  | noItem g =>
      cases alike
      cases h' with
      | noItem g' => exact ⟨rfl, g.behind_unique g' (by decide)⟩
      | firstItem g' h' _ =>
          exact absurd (g'.unique g h'.opens.settled (settled_mark (by decide))) h'.opens.ne_close
  | firstItem g h t ihv iht =>
      cases alike
      cases h' with
      | noItem g' =>
          exact absurd (g.unique g' h.opens.settled (settled_mark (by decide))) h.opens.ne_close
      | firstItem g' h' t' =>
          obtain rfl := g.unique g' h.opens.settled h'.opens.settled
          obtain ⟨e, rfl⟩ := ihv (.value _ _) h'
          obtain ⟨e', rfl⟩ := iht (.moreItems _ _) t'
          exact ⟨by rw [Phrase.value.inj e, Phrase.moreItems.inj e'], rfl⟩
  | lastItem g =>
      cases alike
      cases h' with
      | lastItem g' => exact ⟨rfl, g.behind_unique g' (by decide)⟩
      | nextItem g' => exact absurd (g.mark_unique g' (by decide) (by decide)) (by decide)
  | nextItem g₁ g₂ h t ihv iht =>
      cases alike
      cases h' with
      | lastItem g' => exact absurd (g'.mark_unique g₁ (by decide) (by decide)) (by decide)
      | nextItem g₁' g₂' h' t' =>
          obtain rfl := g₁.behind_unique g₁' (by decide)
          obtain rfl := g₂.unique g₂' h.opens.settled h'.opens.settled
          obtain ⟨e, rfl⟩ := ihv (.value _ _) h'
          obtain ⟨e', rfl⟩ := iht (.moreItems _ _) t'
          exact ⟨by rw [Phrase.value.inj e, Phrase.moreItems.inj e'], rfl⟩
  | field hk g₁ g₂ h ih =>
      cases alike
      cases h' with
      | field hk' g₁' g₂' h' =>
          obtain ⟨rfl, rfl⟩ := hk.unique hk'
          obtain rfl := g₁.behind_unique g₁' (by decide)
          obtain rfl := g₂.unique g₂' h.opens.settled h'.opens.settled
          obtain ⟨e, rfl⟩ := ih (.value _ _) h'
          exact ⟨by rw [Phrase.value.inj e], rfl⟩
  | noField g =>
      cases alike
      cases h' with
      | noField g' => exact ⟨rfl, g.behind_unique g' (by decide)⟩
      | firstField g' h' _ =>
          obtain ⟨u, rfl⟩ := h'.field_eq_cons
          exact absurd (g.mark_unique g' (by decide) (by decide)) (by decide)
  | firstField g h t ihf iht =>
      cases alike
      cases h' with
      | noField g' =>
          obtain ⟨u, rfl⟩ := h.field_eq_cons
          exact absurd (g.mark_unique g' (by decide) (by decide)) (by decide)
      | firstField g' h' t' =>
          obtain rfl := g.unique g' h.field_settled h'.field_settled
          obtain ⟨e, rfl⟩ := ihf (.field _ _) h'
          obtain ⟨e', rfl⟩ := iht (.moreFields _ _) t'
          exact ⟨by rw [Phrase.field.inj e, Phrase.moreFields.inj e'], rfl⟩
  | lastField g =>
      cases alike
      cases h' with
      | lastField g' => exact ⟨rfl, g.behind_unique g' (by decide)⟩
      | nextField g' => exact absurd (g.mark_unique g' (by decide) (by decide)) (by decide)
  | nextField g₁ g₂ h t ihf iht =>
      cases alike
      cases h' with
      | lastField g' => exact absurd (g'.mark_unique g₁ (by decide) (by decide)) (by decide)
      | nextField g₁' g₂' h' t' =>
          obtain rfl := g₁.behind_unique g₁' (by decide)
          obtain rfl := g₂.unique g₂' h.field_settled h'.field_settled
          obtain ⟨e, rfl⟩ := ihf (.field _ _) h'
          obtain ⟨e', rfl⟩ := iht (.moreFields _ _) t'
          exact ⟨by rw [Phrase.field.inj e, Phrase.moreFields.inj e'], rfl⟩

/-- A text is a document of one value at most, whatever its keys. -/
theorem LooseDocument.unique {s : List Char} {v v' : Value} (h : LooseDocument s v)
    (h' : LooseDocument s v') : v = v' := by
  obtain ⟨s₁, s₂, g, h, -⟩ := h
  obtain ⟨s₁', s₂', g', h', -⟩ := h'
  obtain rfl := g.unique g' h.opens.settled h'.opens.settled
  exact Phrase.value.inj (h.unique (.value v v') h').1

/-! ### The rule on keys -/

mutual

theorem Denotes.loose : {s r : List Char} → {v : Value} → Denotes s v r → Loose s (.value v) r
  | _, _, _, .null => .scalar .null rfl
  | _, _, _, .true => .scalar .true rfl
  | _, _, _, .false => .scalar .false rfl
  | _, _, _, .number h => .scalar (.number h) rfl
  | _, _, _, .negative h => .scalar (.negative h) rfl
  | _, _, _, .string h => .scalar (.string h) rfl
  | _, _, _, .sequence h => .sequence h.loose
  | _, _, _, .record h _ => .record h.loose

theorem Items.loose : {s r : List Char} → {vs : List Value} → Items s vs r →
    Loose s (.items vs) r
  | _, _, _, .close g => .noItem g
  | _, _, _, .first g h t => .firstItem g h.loose t.loose

theorem MoreItems.loose : {s r : List Char} → {vs : List Value} → MoreItems s vs r →
    Loose s (.moreItems vs) r
  | _, _, _, .close g => .lastItem g
  | _, _, _, .next g₁ g₂ h t => .nextItem g₁ g₂ h.loose t.loose

theorem Field.loose : {s r : List Char} → {f : String × Value} → Field s f r →
    Loose s (.field f) r
  | _, _, _, .mk hk g₁ g₂ h => .field hk g₁ g₂ h.loose

theorem Fields.loose : {s r : List Char} → {fs : List (String × Value)} → Fields s fs r →
    Loose s (.fields fs) r
  | _, _, _, .close g => .noField g
  | _, _, _, .first g h t => .firstField g h.loose t.loose

theorem MoreFields.loose : {s r : List Char} → {fs : List (String × Value)} →
    MoreFields s fs r → Loose s (.moreFields fs) r
  | _, _, _, .close g => .lastField g
  | _, _, _, .next g₁ g₂ h t => .nextField g₁ g₂ h.loose t.loose

end

namespace Phrase

/-- No record in a value of the phrase has a key twice. -/
def Distinct : Phrase → Prop
  | value v       => v.Distinct
  | field f       => f.2.Distinct
  | items vs      => ∀ v ∈ vs, v.Distinct
  | moreItems vs  => ∀ v ∈ vs, v.Distinct
  | fields fs     => ∀ f ∈ fs, f.2.Distinct
  | moreFields fs => ∀ f ∈ fs, f.2.Distinct

/-- The text begins with the phrase by the strict grammar. -/
def Begins (s : List Char) : Phrase → List Char → Prop
  | value v, r       => Denotes s v r
  | field f, r       => Field s f r
  | items vs, r      => Items s vs r
  | moreItems vs, r  => MoreItems s vs r
  | fields fs, r     => Fields s fs r
  | moreFields fs, r => MoreFields s fs r

end Phrase

theorem Loose.begins {s r : List Char} {p : Phrase} (h : Loose s p r) (hd : p.Distinct) :
    p.Begins s r := by
  induction h with
  | scalar h _ => exact h
  | sequence _ ih =>
      cases hd with
      | sequence hd => exact .sequence (ih hd)
  | record _ ih =>
      cases hd with
      | record keys hd => exact .record (ih hd) keys
  | noItem g => exact .close g
  | firstItem g _ _ ihv iht =>
      obtain ⟨hv, ht⟩ := List.forall_mem_cons.mp hd
      exact .first g (ihv hv) (iht ht)
  | lastItem g => exact .close g
  | nextItem g₁ g₂ _ _ ihv iht =>
      obtain ⟨hv, ht⟩ := List.forall_mem_cons.mp hd
      exact .next g₁ g₂ (ihv hv) (iht ht)
  | field hk g₁ g₂ _ ih => exact .mk hk g₁ g₂ (ih hd)
  | noField g => exact .close g
  | firstField g _ _ ihf iht =>
      obtain ⟨hf, ht⟩ := List.forall_mem_cons.mp hd
      exact .first g (ihf hf) (iht ht)
  | lastField g => exact .close g
  | nextField g₁ g₂ _ _ ihf iht =>
      obtain ⟨hf, ht⟩ := List.forall_mem_cons.mp hd
      exact .next g₁ g₂ (ihf hf) (iht ht)

/-- A value of the strict grammar is one of the loose grammar in which no key is repeated. -/
theorem denotes_iff {s r : List Char} {v : Value} :
    Denotes s v r ↔ Loose s (.value v) r ∧ v.Distinct :=
  ⟨fun h => ⟨h.loose, h.distinct⟩, fun ⟨h, hd⟩ => h.begins hd⟩

theorem document_iff {s : List Char} {v : Value} :
    Document s v ↔ LooseDocument s v ∧ v.Distinct := by
  constructor
  · rintro ⟨s₁, s₂, g, h, g'⟩
    exact ⟨⟨s₁, s₂, g, h.loose, g'⟩, h.distinct⟩
  · rintro ⟨⟨s₁, s₂, g, h, g'⟩, hd⟩
    exact ⟨s₁, s₂, g, h.begins hd, g'⟩

end Sidebar.Json
