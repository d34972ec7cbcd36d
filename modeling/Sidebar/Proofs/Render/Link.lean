import Sidebar.Proofs.Text.Step
import Sidebar.Proofs.Tree.Layout
import Sidebar.Render.Entry

/-!
# Render — links behind a prefix

A link prefix is put in front of the relative links and of no others.  Where the delimiters of a
link stand does not matter for that: it has a scheme exactly if some initial part of it is one, with
a colon.  A prefix that is no relative link itself makes none of the links it is put in front of, so
it is not put in front of a link twice.

* `Link.Relative`: the relative links.
* `Link.hasScheme_iff`, `Link.isRelative_iff`: the tests tell schemes and relative links.
* `Link.relative_of_append`: an initial part of a relative link is one, unless it is empty.
* `Renderer.links_prefixed`: what the links of entries are.
-/

namespace Sidebar

open Text

namespace Link

/-! ### Relative links -/

/-- A letter of ASCII. -/
def IsLetter (c : Char) : Prop := ('a' ≤ c ∧ c ≤ 'z') ∨ ('A' ≤ c ∧ c ≤ 'Z')

/-- A character that a scheme may go on with: a letter or a digit of ASCII, or one of `+`, `.` and
`-`. -/
def ContinuesScheme (c : Char) : Prop :=
  IsLetter c ∨ ('0' ≤ c ∧ c ≤ '9') ∨ c ∈ ['+', '.', '-']

/-- Some initial part of the link is a scheme and a colon. -/
def Schemed (url : List Char) : Prop :=
  ∃ c w, IsLetter c ∧ (∀ d ∈ w, ContinuesScheme d) ∧ c :: w ++ [':'] <+: url

/-- The link is relative to the page it stands on. -/
structure Relative (url : List Char) : Prop where
  nonempty : url ≠ []
  slash : url.head? ≠ some '/'
  hash : url.head? ≠ some '#'
  scheme : ¬ Schemed url

/-- What becomes of a link behind a prefix, or without one. -/
structure Prefixed (base : Option String) (url href : String) : Prop where
  relative : ∀ p ∈ base, Relative url.toList → href = p ++ url
  other : ∀ p ∈ base, ¬ Relative url.toList → href = url
  bare : base = none → href = url
  only : ∀ p ∈ base, p ≠ "" → href = p ++ url → Relative url.toList

variable {c : Char} {url p s : List Char}

/-! ### The tests -/

theorem isAlpha_iff : c.isAlpha = true ↔ IsLetter c := by
  have either : c.isAlpha = (c.isUpper || c.isLower) := rfl
  have upper : c.isUpper = true ↔ 'A' ≤ c ∧ c ≤ 'Z' := decide_eq_true_iff
  have lower : c.isLower = true ↔ 'a' ≤ c ∧ c ≤ 'z' := by
    have both : c.isLower = (decide ('a' ≤ c) && decide (c ≤ 'z')) := rfl
    rw [both, Bool.and_eq_true, decide_eq_true_eq, decide_eq_true_eq]
  rw [either, Bool.or_eq_true, upper, lower]
  exact or_comm

theorem isSchemePart_iff : isSchemePart c = true ↔ ContinuesScheme c := by
  have digit : c.isDigit = true ↔ '0' ≤ c ∧ c ≤ '9' := by
    simp only [Char.isDigit, Bool.and_eq_true, decide_eq_true_eq]
    exact Iff.rfl
  simp only [isSchemePart, Char.isAlphanum, Bool.or_eq_true, beq_iff_eq, isAlpha_iff, digit,
    ContinuesScheme, List.mem_cons, List.not_mem_nil, or_false, or_assoc]

theorem not_isDelimiter_of_isSchemePart (h : isSchemePart c = true) : isDelimiter c = false := by
  refine Bool.eq_false_iff.mpr fun delimiter => ?_
  simp only [isDelimiter, Bool.or_eq_true, beq_iff_eq, or_assoc] at delimiter
  rcases delimiter with rfl | rfl | rfl | rfl <;> exact absurd h (by decide)

/-- The first delimiter of a link with a scheme is the colon behind it. -/
theorem hasScheme_iff : hasScheme url = true ↔ Schemed url := by
  simp only [hasScheme, Bool.and_eq_true, beq_iff_eq, and_assoc]
  constructor
  · rintro ⟨colon, first, every⟩
    have split := List.takeWhile_append_dropWhile (p := (!isDelimiter ·)) (l := url)
    obtain ⟨r, hr⟩ := List.head?_eq_some_iff.mp colon
    obtain ⟨c, hc, letter⟩ := (Option.any_eq_true _ _).mp first
    obtain ⟨w, hw⟩ := List.head?_eq_some_iff.mp hc
    rw [hr, hw] at split
    rw [hw, List.all_eq_true] at every
    refine ⟨c, w, isAlpha_iff.mp letter, fun d hd => ?_, r, ?_⟩
    · exact isSchemePart_iff.mp (every d (List.mem_cons_of_mem c hd))
    · rw [List.append_assoc, List.singleton_append, split]
  · rintro ⟨c, w, letter, every, r, rfl⟩
    have scheme : ∀ d ∈ c :: w, isSchemePart d = true := by
      refine List.forall_mem_cons.mpr ⟨?_, fun d hd => isSchemePart_iff.mpr (every d hd)⟩
      exact isSchemePart_iff.mpr (.inl letter)
    have before : ∀ d ∈ c :: w, (!isDelimiter d) = true := fun d hd => by
      rw [not_isDelimiter_of_isSchemePart (scheme d hd)]
      rfl
    have behind : ∀ d ∈ (':' :: r).head?, ¬ (!isDelimiter d) = true := by
      rintro d hd
      obtain rfl := Option.some.inj hd
      decide
    rw [List.append_assoc, List.singleton_append, takeWhile_append_eq before behind,
      dropWhile_append_eq before behind]
    exact ⟨rfl, isAlpha_iff.mpr letter, List.all_eq_true.mpr scheme⟩

theorem isRelative_iff : isRelative url = true ↔ Relative url := by
  cases url with
  | nil => exact ⟨nofun, fun h => absurd rfl h.nonempty⟩
  | cons c url =>
      simp only [isRelative, Bool.and_eq_true, bne_iff_ne, Bool.not_eq_true', ← Bool.not_eq_true,
        hasScheme_iff, and_assoc]
      refine ⟨fun ⟨slash, hash, scheme⟩ => ⟨List.cons_ne_nil c url, ?_, ?_, scheme⟩, fun h => ?_⟩
      · exact fun e => slash (Option.some.inj e)
      · exact fun e => hash (Option.some.inj e)
      · exact ⟨fun e => h.slash (congrArg some e), fun e => h.hash (congrArg some e), h.scheme⟩

instance : Decidable (Relative url) := decidable_of_iff _ isRelative_iff

/-! ### Prefixes -/

theorem resolve_of_relative {base url : String} (h : Relative url.toList) :
    resolve (some base) url = base ++ url := if_pos (isRelative_iff.mpr h)

theorem resolve_of_not_relative {base url : String} (h : ¬ Relative url.toList) :
    resolve (some base) url = url := if_neg (mt isRelative_iff.mp h)

theorem prefixed_resolve (base : Option String) (url : String) :
    Prefixed base url (resolve base url) where
  relative p hp h := by rw [hp, resolve_of_relative h]
  other p hp h := by rw [hp, resolve_of_not_relative h]
  bare h := by rw [h]; rfl
  only p hp nonempty e := Decidable.byContradiction fun h => by
    rw [hp, resolve_of_not_relative h, ← String.toList_inj, String.toList_append,
      List.self_eq_append_left] at e
    exact nonempty (String.toList_eq_nil_iff.mp e)

/-- An initial part of a relative link is a relative link, unless it is empty. -/
theorem relative_of_append (h : Relative (p ++ s)) (nonempty : p ≠ []) : Relative p where
  nonempty := nonempty
  slash := fun e => h.slash (by rw [List.head?_append, e]; rfl)
  hash := fun e => h.hash (by rw [List.head?_append, e]; rfl)
  scheme := fun ⟨c, w, letter, every, initial⟩ =>
    h.scheme ⟨c, w, letter, every, initial.trans (List.prefix_append p s)⟩

/-- A prefix that is no relative link is put in front of a link once at most. -/
theorem resolve_resolve {base : String} (h : ¬ Relative base.toList) (url : String) :
    resolve (some base) (resolve (some base) url) = resolve (some base) url := by
  by_cases relative : Relative url.toList
  · rw [resolve_of_relative relative]
    by_cases empty : base = ""
    · rw [empty, String.empty_append, resolve_of_relative relative, String.empty_append]
    · refine resolve_of_not_relative fun again => h ?_
      rw [String.toList_append] at again
      exact relative_of_append again (mt String.toList_eq_nil_iff.mp empty)
  · rw [resolve_of_not_relative relative, resolve_of_not_relative relative]

end Link

namespace Renderer

/-- The link of an entry is that of its node behind the prefix of the renderer: with the prefix in
front of it if it is relative, and as it is otherwise.  Unless the prefix is a relative link itself,
putting it in front of the links that come out changes none of them. -/
theorem links_prefixed (r : Renderer) (t : Tree) :
    (∀ base url, Link.Prefixed base url (Link.resolve base url)) ∧
      (∀ base : String, ¬ Link.Relative base.toList → ∀ url,
        Link.resolve (some base) (Link.resolve (some base) url) = Link.resolve (some base) url) ∧
      ∀ e, e ∈ r.treeEntries t ∨ (∃ n, e ∈ r.entries t n) →
        ∃ n c, t.cell? n = some c ∧ e.text = c.text ∧ e.href = Link.resolve r.linkBase c.url := by
  refine ⟨Link.prefixed_resolve, fun base h => Link.resolve_resolve h, fun e he => ?_⟩
  obtain ⟨n, base, b, he⟩ := exists_entry?_of_mem_entries he
  obtain ⟨c, hc, text, href, -⟩ := exists_cell_of_entry? he
  exact ⟨n, c, hc, text, href⟩

/-- A link whose colon stands behind another delimiter, and one with a scheme. -/
def delimited : Outline := ⟨[⟨"A", "search?q=a:b", []⟩, ⟨"B", "svn+ssh:c", []⟩]⟩

/-- The one gets the prefix, and gets it once; the other does not. -/
theorem links_prefixed_delimited :
    Link.Relative "search?q=a:b".toList ∧ ¬ Link.Relative "svn+ssh:c".toList ∧
      ¬ Link.Relative "http://x/".toList ∧
      Link.resolve (some "http://x/") "search?q=a:b" = "http://x/search?q=a:b" ∧
      Link.resolve (some "http://x/") "svn+ssh:c" = "svn+ssh:c" ∧
      Link.resolve (some "http://x/") "http://x/search?q=a:b" = "http://x/search?q=a:b" ∧
      ∃ n c, (Tree.layOut delimited).cell? n = some c ∧ c.text = "A" ∧
        Link.resolve (some "http://x/") c.url = "http://x/search?q=a:b" := by
  have relative : Link.Relative "search?q=a:b".toList := by decide
  have scheme : ¬ Link.Relative "svn+ssh:c".toList := by decide
  have base : ¬ Link.Relative "http://x/".toList := by decide
  have drawn : ⟨"A", "http://x/search?q=a:b", 0, true, false⟩ ∈
      treeEntries ⟨none, some "http://x/", 2⟩ (Tree.layOut delimited) := by decide
  obtain ⟨prefixed, once, links⟩ :=
    links_prefixed ⟨none, some "http://x/", 2⟩ (Tree.layOut delimited)
  have resolved := (prefixed (some "http://x/") "search?q=a:b").relative _ rfl relative
  obtain ⟨n, c, hc, text, href⟩ := links _ (.inl drawn)
  refine ⟨relative, scheme, base, resolved, ?_, ?_, n, c, hc, text.symm, href.symm⟩
  · exact (prefixed _ _).other _ rfl scheme
  · have again := once "http://x/" base "search?q=a:b"
    rwa [resolved] at again

end Renderer

end Sidebar
