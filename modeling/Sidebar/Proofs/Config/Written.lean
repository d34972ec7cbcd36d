import Sidebar.Config.Load
import Sidebar.Proofs.Config.Template

/-!
# Config — templates as they are written

A template is written as plain texts with references between them, and possibly a last brace that
is opened and never closed.  Every reference is replaced where it stands, and nothing else is
touched.  The exception is a default: its `$`s are doubled like those of plain text, but unlike
those they are not read as pairs.

* `Written.value_read_append`: what is written reads as its texts and references in their order.
* `Written.expand_default`: what a reference with a default contributes.
* `Written.resolveField_text`: what becomes of a template whose references have no defaults.
-/

namespace Sidebar

open Text

/-! ### References -/

namespace Reference

/-- What stands between the braces of a reference. -/
def body (r : Reference) : List Char :=
  r.name ++ r.default?.elim [] fun d => ':' :: '-' :: d

/-- A reference as it is written. -/
def chars (r : Reference) : List Char := '$' :: '{' :: (r.body ++ ['}'])

/-- A name and a default that can be told from what stands around them. -/
structure WellFormed (r : Reference) : Prop where
  dollar : '$' ∉ r.name
  brace : '}' ∉ r.name
  mark : ¬ [':', '-'] <:+: r.name
  default : ∀ d ∈ r.default?, r.name ≠ [] ∧ '}' ∉ d

instance (r : Reference) : Decidable r.WellFormed :=
  decidable_of_iff ('$' ∉ r.name ∧ '}' ∉ r.name ∧ ¬ [':', '-'] <:+: r.name ∧
      ∀ d ∈ r.default?, r.name ≠ [] ∧ '}' ∉ d)
    ⟨fun ⟨dollar, brace, mark, default⟩ => ⟨dollar, brace, mark, default⟩,
      fun h => ⟨h.dollar, h.brace, h.mark, h.default⟩⟩

/-- The reference with the `$`s of its default doubled. -/
def doubled (r : Reference) : Reference :=
  { r with default? := r.default?.map Template.braced }

variable {r : Reference} {name d : List Char}

theorem splitDefault_append (h : ¬ [':', '-'] <:+: name) :
    splitDefault (name ++ ':' :: '-' :: d) = some (name, d) := by
  induction name with
  | nil => rfl
  | cons c name ih =>
      have apart : ∀ s, c = ':' → name ++ ':' :: '-' :: d = '-' :: s → False := by
        rintro s rfl e
        cases name with
        | nil => exact absurd (List.cons.inj e).1 (by decide)
        | cons b name =>
            obtain rfl := (List.cons.inj e).1
            exact h ⟨[], name, rfl⟩
      rw [List.cons_append, splitDefault.eq_2 c _ apart, ih fun i => h (List.infix_cons i)]
      rfl

theorem splitDefault_eq_none (h : ¬ [':', '-'] <:+: name) : splitDefault name = none := by
  induction name with
  | nil => rfl
  | cons c name ih =>
      have apart : ∀ s, c = ':' → name = '-' :: s → False := by
        rintro s rfl rfl
        exact h ⟨[], s, rfl⟩
      rw [splitDefault.eq_2 c _ apart, ih fun i => h (List.infix_cons i)]
      rfl

/-- What stands between the braces is taken apart as it was put together. -/
theorem ofBody_body (mark : ¬ [':', '-'] <:+: r.name)
    (default : ∀ d ∈ r.default?, r.name ≠ []) : ofBody r.body = r := by
  obtain ⟨name, default?⟩ := r
  cases default? with
  | none =>
      have body : Reference.body ⟨name, none⟩ = name := List.append_nil name
      rw [ofBody, body, splitDefault_eq_none mark]
  | some d =>
      cases name with
      | nil => exact absurd rfl (default d rfl)
      | cons c name =>
          have body : Reference.body ⟨c :: name, some d⟩ = c :: name ++ ':' :: '-' :: d := rfl
          rw [ofBody, body, splitDefault_append mark]

theorem WellFormed.notMem_body (h : r.WellFormed) : '}' ∉ r.body := by
  rw [body, List.mem_append, not_or]
  refine ⟨h.brace, ?_⟩
  cases e : r.default? with
  | none => exact nofun
  | some d => simpa using (h.default d e).2

/-- Of a reference only the default is spelled otherwise. -/
theorem WellFormed.braced_body (h : r.WellFormed) : Template.braced r.body = r.doubled.body := by
  obtain ⟨name, default?⟩ := r
  cases default? with
  | none =>
      have body : Reference.body ⟨name, none⟩ = name := List.append_nil name
      rw [doubled, Option.map_none, body, Template.braced_of_notMem h.dollar]
  | some d =>
      have marked : Template.braced (':' :: '-' :: d) = ':' :: '-' :: Template.braced d := by
        rw [Template.braced_cons (by decide), Template.braced_cons (by decide)]
      have head : (':' :: '-' :: d).head? ≠ some '{' := by
        exact fun e => absurd (Option.some.inj e) (by decide)
      simp only [body, doubled, Option.map_some, Option.elim_some]
      rw [Template.braced_append head, Template.braced_of_notMem h.dollar, marked]

/-- A reference is read as it was written, with the `$`s of its default doubled. -/
theorem WellFormed.read_append (h : r.WellFormed) (t : List Char) :
    Template.read (r.chars ++ t) = .reference r.doubled :: Template.read t := by
  have head : ('}' :: t).head? ≠ some '{' := fun e => absurd (Option.some.inj e) (by decide)
  have split : Template.braced (r.chars ++ t) =
      '$' :: '{' :: (Template.braced r.body ++ '}' :: Template.braced t) := by
    rw [chars, List.cons_append, List.cons_append, List.append_assoc, List.singleton_append,
      Template.braced_open, Template.braced_append head, Template.braced_cons (by decide)]
  have closed : '}' ∉ Template.braced r.body := mt Template.mem_of_mem_braced h.notMem_body
  have same : ofBody r.doubled.body = r.doubled := by
    refine ofBody_body h.mark fun d hd => ?_
    obtain ⟨d, e, -⟩ := Option.map_eq_some_iff.mp hd
    exact (h.default d e).1
  rw [Template.read, split, Template.scan_reference closed, h.braced_body, same, Template.read]

end Reference

/-! ### Templates -/

/-- A template as it is written: references, each behind a plain text, then the text behind the
last of them, and what follows a brace that is opened and never closed, if there is one. -/
structure Written where
  parts : List (List Char × Reference)
  last : List Char
  unclosed? : Option (List Char)

namespace Written

/-- The text of some references with the plain texts before them. -/
def partsChars (parts : List (List Char × Reference)) : List Char :=
  parts.flatMap fun p => p.1 ++ p.2.chars

/-- What is written behind the last reference. -/
def tail (w : Written) : List Char :=
  w.last ++ w.unclosed?.elim [] fun s => '$' :: '{' :: s

/-- All that is written. -/
def chars (w : Written) : List Char := partsChars w.parts ++ w.tail

/-- The text of a template. -/
def text (w : Written) : String := String.ofList w.chars

/-- Plain texts open no brace, references are well formed, and the last brace stays open. -/
structure WellFormed (w : Written) : Prop where
  plain : ∀ p ∈ w.parts, Template.IsPlain p.1
  reference : ∀ p ∈ w.parts, p.2.WellFormed
  last : Template.IsPlain w.last
  unclosed : ∀ s ∈ w.unclosed?, '}' ∉ s

instance (w : Written) : Decidable w.WellFormed :=
  decidable_of_iff ((∀ p ∈ w.parts, Template.IsPlain p.1) ∧ (∀ p ∈ w.parts, p.2.WellFormed) ∧
      Template.IsPlain w.last ∧ ∀ s ∈ w.unclosed?, '}' ∉ s)
    ⟨fun ⟨plain, reference, last, unclosed⟩ => ⟨plain, reference, last, unclosed⟩,
      fun h => ⟨h.plain, h.reference, h.last, h.unclosed⟩⟩

/-- The parts that the references and the texts before them are read as. -/
def segments (parts : List (List Char × Reference)) : Template :=
  parts.flatMap fun p => [.plain p.1, .reference p.2.doubled]

/-- The variables of a template, from left to right. -/
def names (w : Written) : List String :=
  w.parts.map fun p => String.ofList p.2.name

/-- The text with each reference replaced by the value of its variable. -/
def filled (lookup : String → Option String) (w : Written) : String :=
  String.ofList
    ((w.parts.flatMap fun p => p.1 ++ ((lookup (String.ofList p.2.name)).getD "").toList) ++ w.tail)

variable (lookup : String → Option String) {parts : List (List Char × Reference)} {w : Written}

/-- Whatever follows the references is read on its own. -/
theorem value_read_append (plain : ∀ p ∈ parts, Template.IsPlain p.1)
    (reference : ∀ p ∈ parts, p.2.WellFormed) (t : List Char) :
    Template.value lookup (Template.read (partsChars parts ++ t)) =
      Template.value lookup (segments parts ++ Template.read t) := by
  induction parts with
  | nil => rfl
  | cons p parts ih =>
      -- the text is not joined to its reference by the spelling, whatever `$`s it ends in
      obtain ⟨s, r⟩ := p
      have hs : Template.IsPlain s := plain _ (.head _)
      have hr : r.WellFormed := reference _ (.head _)
      have rest := ih (fun p hp => plain p (.tail _ hp)) fun p hp => reference p (.tail _ hp)
      have split : partsChars ((s, r) :: parts) ++ t =
          s ++ (r.chars ++ (partsChars parts ++ t)) := by
        simp only [partsChars, List.flatMap_cons, List.append_assoc]
      have head : (r.chars ++ (partsChars parts ++ t)).head? ≠ some '{' :=
        fun e => absurd (Option.some.inj e) (by decide)
      rw [split, Template.read, Template.braced_append head, Template.value_plain_append lookup hs,
        ← Template.read, hr.read_append, Template.value, rest]
      simp only [segments, List.flatMap_cons, List.cons_append, List.nil_append,
        Template.value_plain_cons, Template.value]

theorem WellFormed.value_tail (h : w.WellFormed) :
    Template.value lookup (Template.read w.tail) = .ok w.tail := by
  obtain ⟨parts, last, unclosed?⟩ := w
  cases unclosed? with
  | none =>
      have tail : tail ⟨parts, last, none⟩ = last := List.append_nil last
      rw [tail, Template.value_plain lookup h.last]
  | some s =>
      have unclosed : '}' ∉ '$' :: '{' :: s := by simpa using h.unclosed s rfl
      have head : ('$' :: '{' :: s).head? ≠ some '{' :=
        fun e => absurd (Option.some.inj e) (by decide)
      have rest := Template.value_unclosed lookup unclosed
      rw [Template.read] at rest
      simp only [tail, Option.elim_some]
      rw [Template.read, Template.braced_append head, Template.value_plain_append lookup h.last,
        rest]
      rfl

/-- A template stands for its parts, and its tail as it is. -/
theorem WellFormed.value_chars (h : w.WellFormed) :
    Template.value lookup (Template.read w.chars) =
      (Template.value lookup (segments w.parts)).map (· ++ w.tail) := by
  rw [chars, value_read_append lookup h.plain h.reference, Template.value_append,
    h.value_tail]
  cases Template.value lookup (segments w.parts) <;> rfl

/-! ### Defaults -/

theorem segments_append (parts qs : List (List Char × Reference)) :
    segments (parts ++ qs) = segments parts ++ segments qs :=
  List.flatMap_append

theorem partsChars_append (parts qs : List (List Char × Reference)) :
    partsChars (parts ++ qs) = partsChars parts ++ partsChars qs :=
  List.flatMap_append

/-- A reference with a default stands for the value of its variable, or else for the default with
its `$`s doubled, whatever is written before and after it. -/
theorem value_default {name d : List Char} (hw : w.WellFormed) (closed : w.unclosed? = none)
    (hr : Reference.WellFormed ⟨name, some d⟩) (after : List Char) :
    Template.value lookup
        (Template.read (w.chars ++ Reference.chars ⟨name, some d⟩ ++ after)) =
      (do
        let u ← Template.value lookup (Template.read w.chars)
        let v ← Template.value lookup (Template.read after)
        .ok (u ++
          ((lookup (String.ofList name)).elim (Template.braced d) String.toList ++ v))) := by
  have tail : w.tail = w.last := by rw [Written.tail, closed]; exact List.append_nil w.last
  -- the text before the reference and the reference are one more part
  have split : w.chars ++ Reference.chars ⟨name, some d⟩ ++ after =
      partsChars (w.parts ++ [(w.last, ⟨name, some d⟩)]) ++ after := by
    rw [chars, tail, partsChars_append]
    simp [partsChars]
  have plain : ∀ p ∈ w.parts ++ [(w.last, ⟨name, some d⟩)], Template.IsPlain p.1 :=
    List.forall_mem_append.mpr ⟨hw.plain, List.forall_mem_singleton.mpr hw.last⟩
  have reference : ∀ p ∈ w.parts ++ [(w.last, ⟨name, some d⟩)], p.2.WellFormed :=
    List.forall_mem_append.mpr ⟨hw.reference, List.forall_mem_singleton.mpr hr⟩
  have contribution : Segment.value lookup (.reference (Reference.doubled ⟨name, some d⟩)) =
      .ok ((lookup (String.ofList name)).elim (Template.braced d) String.toList) := by
    rw [Segment.value, Reference.doubled]
    cases lookup (String.ofList name) <;> rfl
  rw [split, value_read_append lookup plain reference, segments_append, List.append_assoc,
    Template.value_append, hw.value_chars, tail]
  simp only [segments, List.flatMap_cons, List.flatMap_nil, List.append_nil, List.cons_append,
    List.nil_append, Template.value_plain_cons, Template.value, contribution, ok_bind]
  cases Template.value lookup (w.parts.flatMap fun p => [.plain p.1, .reference p.2.doubled]) with
  | error e => rfl
  | ok u => cases Template.value lookup (Template.read after) <;> simp [Except.map]

/-- A reference with a default contributes the value of its variable.  Where there is none, it
contributes the default with the `$`s doubled that open no brace, which is the default as it is
written exactly when each `$` in it opens a brace. -/
theorem expand_default {name d : List Char} (hw : w.WellFormed) (closed : w.unclosed? = none)
    (hr : Reference.WellFormed ⟨name, some d⟩) (after : List Char) :
    Template.expand lookup
        (String.ofList (w.chars ++ Reference.chars ⟨name, some d⟩ ++ after)) =
      (do
        let u ← Template.expand lookup w.text
        let v ← Template.expand lookup (String.ofList after)
        .ok (u ++ (lookup (String.ofList name)).getD (String.ofList (Template.braced d)) ++ v)) ∧
    (Template.braced d = d ↔ Template.AllOpen d) := by
  refine ⟨?_, Template.braced_eq_self_iff⟩
  simp only [Template.expand_eq_value, text, String.toList_ofList]
  rw [value_default lookup hw closed hr after]
  cases Template.value lookup (Template.read w.chars) with
  | error e => rfl
  | ok u =>
      cases Template.value lookup (Template.read after) with
      | error e => rfl
      | ok v =>
          cases lookup (String.ofList name) <;>
            simp [Except.map, String.ofList_append, String.append_assoc]

/-- Plain texts that end in a `$`, and a default that opens a brace. -/
def defaulted : Written :=
  ⟨[(['$'], ⟨['A'], none⟩), (['-'], ⟨['B'], some ['$', '{', 'C']⟩)], ['$'], none⟩

/-- Behind them a default with a `$` that opens none; values keep theirs. -/
theorem expand_default_defaulted :
    defaulted.WellFormed ∧ defaulted.unclosed? = none ∧
      Reference.WellFormed ⟨['B'], some ['$', 'C']⟩ ∧
      Template.expand (fun n => if n = "A" then some "$a" else none)
          "$$\x7bA\x7d-$\x7bB:-$\x7bC\x7d$$\x7bB:-$C\x7d$" = .ok "$$a-$\x7bC$$$C$" := by
  have wellFormed : defaulted.WellFormed := by decide
  have reference : Reference.WellFormed ⟨['B'], some ['$', 'C']⟩ := by decide
  exact ⟨wellFormed, rfl, reference, (expand_default _ wellFormed rfl reference ['$']).1.trans rfl⟩

/-- A default that is one `$` comes out as two. -/
theorem expand_default_dollar :
    Reference.WellFormed ⟨['A'], some ['$']⟩ ∧
      Template.expand (fun _ => none) "$\x7bA:-$\x7d" = .ok "$$" ∧
      Template.expand (fun _ => none) "$\x7bA:-$\x7d" ≠ .ok "$" := by
  have doubled : Template.expand (fun _ => none) "$\x7bA:-$\x7d" = .ok "$$" := rfl
  refine ⟨by decide, doubled, fun single => ?_⟩
  rw [doubled] at single
  exact absurd (Except.ok.inj single) (by decide)

/-! ### References without defaults -/

/-- The references are resolved from left to right; the first whose variable is missing is named. -/
theorem value_segments (simple : ∀ p ∈ parts, p.2.default? = none) :
    Template.value lookup (segments parts) =
      match (parts.map fun p => String.ofList p.2.name).find? fun n => (lookup n).isNone with
      | none      => .ok (parts.flatMap fun p =>
          p.1 ++ ((lookup (String.ofList p.2.name)).getD "").toList)
      | some name => .error name := by
  induction parts with
  | nil => rfl
  | cons p parts ih =>
      obtain ⟨s, name, default?⟩ := p
      obtain rfl : default? = none := simple _ (.head _)
      have rest := ih fun p hp => simple p (.tail _ hp)
      have split : segments ((s, ⟨name, none⟩) :: parts) =
          .plain s :: .reference ⟨name, none⟩ :: segments parts := rfl
      rw [split, Template.value_plain_cons, Template.value, Segment.value, List.map_cons,
        List.find?_cons, List.flatMap_cons, rest]
      cases lookup (String.ofList name) with
      | none => rfl
      | some v =>
          simp only [ok_bind, Option.isNone_some, Option.getD_some]
          cases (parts.map fun p => String.ofList p.2.name).find? fun n => (lookup n).isNone with
          | none => simp [Except.map]
          | some name => rfl

/-- Where no variable is missing, a template becomes its text with each reference replaced by the
value of its variable; otherwise the leftmost missing variable is named, with the field it stands
in.  A text in which no brace is opened is taken as it is, which is also what reading it gives. -/
theorem resolveField_text (field : TemplateField) (h : w.WellFormed)
    (simple : ∀ p ∈ w.parts, p.2.default? = none) :
    Draft.resolveField lookup field (some w.text) =
        (match w.names.find? fun name => (lookup name).isNone with
        | none      => .ok (some (w.filled lookup))
        | some name => .error (.unset field name)) ∧
      ∀ s, Template.expand lookup s =
        (Template.value lookup (Template.read s.toList)).map String.ofList := by
  refine ⟨?_, Template.expand_eq_value lookup⟩
  rw [Draft.resolveField, Template.expand_eq_value, text, String.toList_ofList, h.value_chars,
    value_segments lookup simple, names, filled]
  cases (w.parts.map fun p => String.ofList p.2.name).find? fun n => (lookup n).isNone with
  | none => rfl
  | some name => rfl

/-- Runs of `$`s before references and before a brace that stays open, and a value that looks like
a reference. -/
def dollars : Written :=
  ⟨[(['$', '$'], ⟨['A'], none⟩), (['$', 'B', '$'], ⟨['C'], none⟩)], ['$'], some ['D', '$']⟩

theorem resolveField_text_dollars :
    dollars.WellFormed ∧ (∀ p ∈ dollars.parts, p.2.default? = none) ∧
      Draft.resolveField
          (fun n => if n = "A" then some "$\x7bC\x7d" else if n = "C" then some "c" else none)
          .linkBase (some "$$$\x7bA\x7d$B$$\x7bC\x7d$$\x7bD$") =
        .ok (some "$$$\x7bC\x7d$B$c$$\x7bD$") ∧
      Draft.resolveField (fun n => if n = "C" then some "c" else none)
          .linkBase (some "$$$\x7bA\x7d$B$$\x7bC\x7d$$\x7bD$") =
        .error (.unset .linkBase "A") := by
  have wellFormed : dollars.WellFormed := by decide
  have simple : ∀ p ∈ dollars.parts, p.2.default? = none := by decide
  exact ⟨wellFormed, simple, (resolveField_text _ .linkBase wellFormed simple).1.trans rfl,
    (resolveField_text _ .linkBase wellFormed simple).1.trans rfl⟩

end Written

end Sidebar
