import Mathlib.Data.List.Infix
import Sidebar.Render.Html

/-!
# Render — entities

Escaped text stands between tags and between quotes, so it holds none of the characters that end
it, and each ampersand in it begins an entity.  A reader undoes the five entities in one pass from
left to right.  On texts of this kind reading and escaping undo each other, so nothing that looked
like an entity before it was escaped is taken for one that escaping wrote.

* `Inert`: the texts of this kind.
* `notMem_escape`, `inert_escape`: escaped text is inert.
* `unescape_escape`, `Inert.flatMap_spell`: reading undoes escaping, and escaping undoes reading.
* `escape_reads_back`: the escaped text is the one inert text that reads as the text.
-/

namespace Sidebar.Html

/-- The characters that end a text or an attribute, or begin a tag. -/
def specials : List Char := ['<', '>', '"', '\'']

/-- The spellings of the five characters that have an entity. -/
def entities : List String := ["&amp;", "&lt;", "&gt;", "&quot;", "&#x27;"]

/-- The text with its entities undone. -/
def unescape : List Char → List Char
  | '&' :: 'a' :: 'm' :: 'p' :: ';' :: s        => '&' :: unescape s
  | '&' :: 'l' :: 't' :: ';' :: s               => '<' :: unescape s
  | '&' :: 'g' :: 't' :: ';' :: s               => '>' :: unescape s
  | '&' :: 'q' :: 'u' :: 'o' :: 't' :: ';' :: s => '"' :: unescape s
  | '&' :: '#' :: 'x' :: '2' :: '7' :: ';' :: s => '\'' :: unescape s
  | c :: s                                      => c :: unescape s
  | []                                          => []

@[simp] theorem escape_empty : escape "" = "" := by decide

@[simp] theorem escape_newline : escape "\n" = "\n" := by decide

/-- A character is spelled as it is, or is one of the five with an entity. -/
theorem spell_cases (c : Char) :
    (c ≠ '&' ∧ c ∉ specials ∧ spell c = [c]) ∨ (c = '&' ∧ spell c = "&amp;".toList) ∨
      (c = '<' ∧ spell c = "&lt;".toList) ∨ (c = '>' ∧ spell c = "&gt;".toList) ∨
      (c = '"' ∧ spell c = "&quot;".toList) ∨ (c = '\'' ∧ spell c = "&#x27;".toList) := by
  unfold spell
  split <;> simp_all [specials]

/-- A character has an entity, or is spelled as it is. -/
theorem spell_plain_or_entity (c : Char) :
    (c ≠ '&' ∧ c ∉ specials ∧ spell c = [c]) ∨ ∃ e ∈ entities, spell c = e.toList := by
  rcases spell_cases c with plain | ⟨-, e⟩ | ⟨-, e⟩ | ⟨-, e⟩ | ⟨-, e⟩ | ⟨-, e⟩
  · exact .inl plain
  all_goals exact .inr ⟨_, by decide, e⟩

theorem unescape_cons {c : Char} (h : c ≠ '&') (s : List Char) :
    unescape (c :: s) = c :: unescape s := by
  rw [unescape] <;> simp [h]

theorem unescape_spell (c : Char) (s : List Char) : unescape (spell c ++ s) = c :: unescape s := by
  rcases spell_cases c with ⟨h, -, e⟩ | ⟨rfl, e⟩ | ⟨rfl, e⟩ | ⟨rfl, e⟩ | ⟨rfl, e⟩ | ⟨rfl, e⟩
  · rw [e]
    exact unescape_cons h s
  all_goals
    rw [e]
    simp [unescape]

/-- Reading undoes escaping. -/
theorem unescape_escape (s : String) : unescape (escape s).toList = s.toList := by
  rw [escape, String.toList_ofList]
  induction s.toList with
  | nil => rfl
  | cons c cs ih => rw [List.flatMap_cons, unescape_spell, ih]

theorem notMem_entity : ∀ s ∈ entities, ∀ c ∈ specials, c ∉ s.toList := by
  simp [entities, specials]

/-- Escaped text holds no special character. -/
theorem notMem_escape {c : Char} (hc : c ∈ specials) (s : String) : c ∉ (escape s).toList := by
  rw [escape, String.toList_ofList, List.mem_flatMap]
  rintro ⟨d, -, h⟩
  rcases spell_plain_or_entity d with ⟨-, hd, plain⟩ | ⟨e, he, entity⟩
  · rw [plain, List.mem_singleton] at h
    exact hd (h ▸ hc)
  · rw [entity] at h
    exact notMem_entity e he c hc h

/-! ### Inert texts -/

/-- Text without special characters, in which each ampersand begins an entity. -/
structure Inert (t : List Char) : Prop where
  notMem : ∀ c ∈ specials, c ∉ t
  begins : ∀ u, '&' :: u <:+ t → ∃ e ∈ entities, e.toList <+: '&' :: u

instance (t : List Char) : Decidable (Inert t) :=
  decidable_of_iff (t.all (· ∉ specials) = true ∧
      ∀ v ∈ t.tails, v.head? = some '&' → ∃ e ∈ entities, e.toList <+: v) <| by
    rw [List.all_eq_true]
    constructor
    · rintro ⟨notMem, begins⟩
      refine ⟨fun c hc mem => of_decide_eq_true (notMem c mem) hc, fun u h => ?_⟩
      exact begins _ ((List.mem_tails _ _).mpr h) rfl
    · intro h
      refine ⟨fun c mem => decide_eq_true fun hc => h.notMem c hc mem, fun v hv head => ?_⟩
      obtain ⟨u, rfl⟩ := List.head?_eq_some_iff.mp head
      exact h.begins u ((List.mem_tails _ _).mp hv)

theorem Inert.of_suffix {t u : List Char} (h : Inert t) (hu : u <:+ t) : Inert u :=
  ⟨fun c hc mem => h.notMem c hc (hu.subset mem), fun v hv => h.begins v (hv.trans hu)⟩

theorem spell_ne_nil (c : Char) : spell c ≠ [] := by
  rcases spell_plain_or_entity c with ⟨-, -, plain⟩ | ⟨e, he, entity⟩
  · rw [plain]
    exact List.cons_ne_nil c []
  · rw [entity]
    exact (by decide : ∀ e ∈ entities, e.toList ≠ []) e he

theorem spell_eq_singleton {c : Char} (h : c ≠ '&') (hc : c ∉ specials) : spell c = [c] := by
  rcases spell_cases c with ⟨-, -, e⟩ | ⟨rfl, -⟩ | ⟨rfl, -⟩ | ⟨rfl, -⟩ | ⟨rfl, -⟩ | ⟨rfl, -⟩
  · exact e
  · exact absurd rfl h
  all_goals exact absurd (by decide) hc

theorem entities_eq : entities = ('&' :: specials).map fun c => String.ofList (spell c) := by
  decide

/-- An entity is the spelling of a character. -/
theorem exists_spell_eq {e : String} (he : e ∈ entities) : ∃ c, spell c = e.toList := by
  rw [entities_eq] at he
  obtain ⟨c, -, rfl⟩ := List.mem_map.mp he
  exact ⟨c, String.toList_ofList.symm⟩

/-- An ampersand in a spelling is its first character. -/
theorem ampersand_spell_append {c : Char} {t u : List Char} (h : '&' :: u <:+ spell c ++ t) :
    '&' :: u = spell c ++ t ∨ '&' :: u <:+ t := by
  rcases spell_cases c with ⟨-, -, e⟩ | ⟨-, e⟩ | ⟨-, e⟩ | ⟨-, e⟩ | ⟨-, e⟩ | ⟨-, e⟩
  all_goals
    rw [e] at h ⊢
    simpa [List.suffix_cons_iff] using h

theorem begins_flatMap_spell {u : List Char} : (s : List Char) → '&' :: u <:+ s.flatMap spell →
    ∃ e ∈ entities, e.toList <+: '&' :: u
  | [], h => absurd (List.suffix_nil.mp h) (List.cons_ne_nil '&' u)
  | c :: s, h => by
      rw [List.flatMap_cons] at h
      rcases ampersand_spell_append h with first | below
      · rw [first]
        rcases spell_plain_or_entity c with ⟨hc, -, plain⟩ | ⟨e, he, entity⟩
        · -- a character spelled as it is would be the ampersand
          rw [plain] at first
          exact absurd (List.cons.inj first).1.symm hc
        · exact ⟨e, he, entity ▸ List.prefix_append _ _⟩
      · exact begins_flatMap_spell s below

/-- Escaped text is inert. -/
theorem inert_escape (s : String) : Inert (escape s).toList where
  notMem _ hc := notMem_escape hc s
  begins u h := by
    rw [escape, String.toList_ofList] at h
    exact begins_flatMap_spell s.toList h

/-- Inert text begins with the spelling of a character. -/
theorem Inert.exists_spell {c : Char} {t : List Char} (h : Inert (c :: t)) :
    ∃ d u, c :: t = spell d ++ u := by
  by_cases hc : c = '&'
  · obtain ⟨e, he, u, eq⟩ := h.begins t (hc ▸ List.suffix_refl _)
    obtain ⟨d, spelled⟩ := exists_spell_eq he
    exact ⟨d, u, by rw [spelled, eq, hc]⟩
  · have plain : c ∉ specials := fun mem => h.notMem c mem List.mem_cons_self
    exact ⟨c, t, by rw [spell_eq_singleton hc plain, List.singleton_append]⟩

/-- Escaping undoes reading. -/
theorem Inert.flatMap_spell : {t : List Char} → Inert t → (unescape t).flatMap spell = t
  | [], _ => rfl
  | c :: t, h => by
      -- the recursion is on what is behind the first spelling, which may be an entity
      obtain ⟨d, u, e⟩ := h.exists_spell
      have inert : Inert u := h.of_suffix (e ▸ List.suffix_append _ _)
      have shorter : u.length < (c :: t).length := by
        have := List.length_pos_iff.mpr (spell_ne_nil d)
        rw [e, List.length_append]
        omega
      rw [e, unescape_spell, List.flatMap_cons, inert.flatMap_spell]
termination_by t => t.length
decreasing_by exact shorter

/-- Escaped text holds no special character, and each ampersand in it begins an entity.  It reads as
the text it was escaped from, whatever that looks like, and is the only inert text that does.  Texts
are escaped part by part. -/
theorem escape_reads_back (s : String) :
    Inert (escape s).toList ∧ unescape (escape s).toList = s.toList ∧
      (∀ t : String, Inert t.toList → unescape t.toList = s.toList → t = escape s) ∧
      ∀ t, escape (s ++ t) = escape s ++ escape t := by
  refine ⟨inert_escape s, unescape_escape s, fun t inert reads => ?_, escape_append s⟩
  rw [escape, ← reads, inert.flatMap_spell, String.ofList_toList]

/-- A text of things that look like entities and tags.  With an ampersand of its own a text is not
inert. -/
theorem escape_reads_back_entities :
    Inert "&amp;lt;&amp;amp;amp; &lt;b a=&#x27;&quot;&#x27;&gt;".toList ∧
      "&amp;lt;&amp;amp;amp; &lt;b a=&#x27;&quot;&#x27;&gt;" =
        escape "&lt;&amp;amp; <b a='\"'>" ∧
      ¬ Inert "Q&A; &lt;".toList :=
  have inert : Inert "&amp;lt;&amp;amp;amp; &lt;b a=&#x27;&quot;&#x27;&gt;".toList := by decide
  ⟨inert, (escape_reads_back "&lt;&amp;amp; <b a='\"'>").2.2.1 _ inert (by decide), by decide⟩

end Sidebar.Html
