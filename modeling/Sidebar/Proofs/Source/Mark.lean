import Sidebar.Proofs.Script.Document
import Sidebar.Proofs.Script.Fault
import Sidebar.Source

/-!
# Source — byte order marks

A reader drops one mark in front of a text, and so does the detection of the format.  Reading in a
given format drops one before either sees the text.  So a second mark is dropped on one way and
read on the other; a third one is read on both.

* `Text.marks`: the number of marks that a text begins with.
* `Json.read_marked`, `Script.read_marked`: what becomes of a mark that is not dropped.
* `Outline.Agrees`: every way reads a source alike.
* `Outline.agrees_iff`: that is so exactly when it does not begin with just two marks.
-/

namespace Sidebar

namespace Text

/-! ### Leading marks -/

/-- The number of marks that a text begins with. -/
def marks : List Char → Nat
  | c :: s => if c = byteOrderMark then marks s + 1 else 0
  | []     => 0

variable {s : List Char}

theorem marks_cons_mark (s : List Char) : marks (byteOrderMark :: s) = marks s + 1 :=
  if_pos rfl

theorem marks_cons_of_ne {c : Char} (h : c ≠ byteOrderMark) (s : List Char) :
    marks (c :: s) = 0 :=
  if_neg h

/-- A text begins with a mark, or none is dropped. -/
theorem marks_cases (s : List Char) :
    (marks s = 0 ∧ dropMark s = s) ∨ ∃ t, s = byteOrderMark :: t ∧ dropMark s = t := by
  cases s with
  | nil => exact .inl ⟨rfl, rfl⟩
  | cons c s =>
      by_cases h : c = byteOrderMark
      · exact .inr ⟨s, by rw [h], if_pos h⟩
      · exact .inl ⟨marks_cons_of_ne h s, if_neg h⟩

theorem marks_dropMark (s : List Char) : marks (dropMark s) = marks s - 1 := by
  rcases marks_cases s with ⟨none, e⟩ | ⟨t, rfl, e⟩
  · rw [e, none]
  · rw [e, marks_cons_mark, Nat.add_sub_cancel]

theorem dropMark_of_marks (h : marks s = 0) : dropMark s = s := by
  rcases marks_cases s with ⟨-, e⟩ | ⟨t, rfl, -⟩
  · exact e
  · exact absurd h (by rw [marks_cons_mark]; exact Nat.succ_ne_zero _)

theorem exists_of_marks (h : 0 < marks s) : ∃ t, s = byteOrderMark :: t := by
  rcases marks_cases s with ⟨none, -⟩ | ⟨t, e, -⟩
  · exact absurd none (Nat.ne_of_gt h)
  · exact ⟨t, e⟩

theorem drop_two_of_marks (h : marks s = 2) : s.drop 2 = dropMark (dropMark s) := by
  obtain ⟨t, rfl⟩ := exists_of_marks (s := s) (by rw [h]; decide)
  rw [marks_cons_mark] at h
  obtain ⟨u, rfl⟩ := exists_of_marks (s := t) (by rw [Nat.succ.inj h]; decide)
  rfl

/-! ### The first position -/

theorem Position.step_pos {p : Position} (h : 0 < p.line ∧ 0 < p.column) (c : Char) :
    0 < (p.step c).line ∧ 0 < (p.step c).column := by
  unfold step
  split
  · exact ⟨Nat.succ_pos _, Nat.succ_pos _⟩
  · exact ⟨h.1, Nat.succ_pos _⟩

theorem Position.foldl_step_pos {p : Position} (h : 0 < p.line ∧ 0 < p.column) (s : List Char) :
    0 < (s.foldl step p).line ∧ 0 < (s.foldl step p).column := by
  induction s generalizing p with
  | nil => exact h
  | cons c s ih => exact ih (step_pos h c)

/-- Only the empty text ends at the first position. -/
theorem Position.after_eq_start_iff : Position.after s = Position.start ↔ s = [] := by
  refine ⟨fun h => ?_, fun h => by rw [h]; rfl⟩
  rcases List.eq_nil_or_concat s with e | ⟨t, c, rfl⟩
  · exact e
  · obtain ⟨line, column⟩ := foldl_step_pos (p := start) ⟨Nat.one_pos, Nat.one_pos⟩ t
    rw [List.concat_eq_append, after_append, List.foldl_cons, List.foldl_nil, step] at h
    split at h
    · exact absurd (Position.mk.inj h).1 (Nat.ne_of_gt (Nat.succ_lt_succ line))
    · exact absurd (Position.mk.inj h).2 (Nat.ne_of_gt (Nat.succ_lt_succ column))

end Text

open Sidebar.Text

/-! ### Readers -/

/-- A mark is no blank and begins no value. -/
theorem Json.read_marked {source : String} (h : 0 < marks (dropMark source.toList)) :
    Json.read source = .error ⟨.valueMissing, Position.start⟩ := by
  obtain ⟨t, e⟩ := exists_of_marks h
  have stops : Json.document (byteOrderMark :: t) =
      .error ⟨.valueMissing, bytes (byteOrderMark :: t) - 1⟩ := rfl
  have offset : bytes (byteOrderMark :: t) - (bytes (byteOrderMark :: t) - 1) = 1 := by
    have : 0 < bytes (byteOrderMark :: t) := Nat.add_pos_left byteOrderMark.utf8Size_pos _
    omega
  have position : (Json.Fault.mk .valueMissing (bytes (byteOrderMark :: t) - 1)).locate
      (byteOrderMark :: t) = ⟨.valueMissing, Position.start⟩ := by
    rw [Json.Fault.locate, offset]
    rfl
  rw [Json.read, e, mapError_error_iff]
  exact ⟨_, stops, position⟩

/-- A mark is no blank, begins no name and begins no value. -/
theorem Script.read_marked {source : String} (h : 0 < marks (dropMark source.toList)) :
    Script.read source = .error ⟨.unexpected byteOrderMark, Position.start⟩ := by
  obtain ⟨t, e⟩ := exists_of_marks h
  have settled : gap (byteOrderMark :: t) = .ok (byteOrderMark :: t) :=
    skipGap_settled (settled_of_not_isBlank (by decide) (by decide))
  have bare : assignment (byteOrderMark :: t) = .ok (byteOrderMark :: t) :=
    assignment_of_not_isNameStart fun c hc => by
      obtain rfl := Option.some.inj hc
      decide +kernel
  have stops : Script.document (byteOrderMark :: t) =
      .error ⟨.unexpected byteOrderMark, byteOrderMark :: t⟩ := by
    rw [Script.document, settled, ok_bind, bare]
    rfl
  have position : (Script.Fault.mk (.unexpected byteOrderMark) (byteOrderMark :: t)).locate
      (byteOrderMark :: t) = ⟨.unexpected byteOrderMark, Position.start⟩ := by
    rw [Script.Fault.locate, Nat.sub_self]
    rfl
  rw [Script.read, e, mapError_error_iff]
  exact ⟨_, stops, position⟩

/-- An unexpected mark at the first position was there: some mark was not dropped. -/
theorem Script.marks_of_read {source : String}
    (h : Script.read source = .error ⟨.unexpected byteOrderMark, Position.start⟩) :
    0 < marks (dropMark source.toList) := by
  obtain ⟨p, r, text, position, found⟩ := read_stops_in h
  obtain rfl : p = [] := Position.after_eq_start_iff.mp position.symm
  obtain ⟨t, rfl⟩ := List.head?_eq_some_iff.mp found
  rw [text, List.nil_append, marks_cons_mark]
  exact Nat.succ_pos _

/-! ### Formats -/

namespace Format

theorem detectIn_marked {s : List Char} (h : 0 < marks (dropMark s)) : detectIn s = .script := by
  obtain ⟨t, e⟩ := exists_of_marks h
  have settled : (byteOrderMark :: t).dropWhile isBlank = byteOrderMark :: t :=
    List.dropWhile_cons_of_neg (by decide)
  rw [detectIn, e, settled]
  rfl

theorem detectIn_congr {s t : List Char} (h : dropMark s = dropMark t) :
    detectIn s = detectIn t := by
  rw [detectIn, detectIn, h]

theorem resolve_congr {source text : String} (h : detect text = detect source) (f : Format) :
    f.resolve text = f.resolve source := by
  cases f with
  | auto => exact h
  | json => rfl
  | script => rfl

theorem resolve_resolve (f : Format) (source text : String) :
    (f.resolve source).resolve text = f.resolve source := by
  have := f.resolve_ne_auto source
  cases h : f.resolve source with
  | auto => exact absurd h this
  | json => rfl
  | script => rfl

end Format

/-! ### Outlines -/

namespace Outline

variable {source : String}

theorem ofJson_congr {text : String} (h : dropMark text.toList = dropMark source.toList) :
    ofJson text = ofJson source := by
  rw [ofJson, ofJson, Json.read, Json.read, h]

theorem ofScript_congr {text : String} (h : dropMark text.toList = dropMark source.toList) :
    ofScript text = ofScript source := by
  rw [ofScript, ofScript, Script.read, Script.read, h]

theorem ofJson_marked (h : 0 < marks (dropMark source.toList)) :
    ofJson source = .error (.json ⟨.valueMissing, Position.start⟩) := by
  rw [ofJson, Json.read_marked h]
  rfl

theorem ofScript_marked (h : 0 < marks (dropMark source.toList)) :
    ofScript source = .error (.script ⟨.unexpected byteOrderMark, Position.start⟩) := by
  rw [ofScript, Script.read_marked h]
  rfl

theorem marks_of_ofScript
    (h : ofScript source = .error (.script ⟨.unexpected byteOrderMark, Position.start⟩)) :
    0 < marks (dropMark source.toList) := by
  apply Script.marks_of_read
  unfold ofScript at h
  cases read : Script.read source with
  | error e =>
      rw [read] at h
      obtain rfl := LoadFault.script.inj (Except.error.inj h)
      rfl
  | ok v =>
      rw [read] at h
      obtain ⟨m, -, e⟩ := mapError_error_iff.mp h
      exact nomatch e

/-- The text that a source is read from in a given format. -/
def unmarked (source : String) : String :=
  String.ofList (dropMark source.toList)

theorem toList_unmarked (source : String) : (unmarked source).toList = dropMark source.toList :=
  String.toList_ofList

/-- Every way reads a source alike: in a format and in the one it is resolved to, and in the format
of a reader and by that reader. -/
structure Agrees (source : String) : Prop where
  resolved : ∀ format, parse format source = parse (format.resolve source) source
  json : parse .json source = ofJson source
  script : parse .script source = ofScript source

/-- It is enough that dropping a mark makes no difference to the detection and the readers. -/
theorem Agrees.of_unmarked (hd : Format.detect (unmarked source) = Format.detect source)
    (hj : ofJson (unmarked source) = ofJson source)
    (hs : ofScript (unmarked source) = ofScript source) : Agrees source where
  resolved format := by
    have resolve := format.resolve_congr hd
    have resolve' := format.resolve_resolve source (unmarked source)
    unfold unmarked at resolve resolve'
    rw [parse, parse, resolve, resolve']
  json := hj
  script := hs

/-- A second mark alone makes a difference. -/
theorem Agrees.of_marks (h : marks source.toList ≠ 2) : Agrees source := by
  have first : marks (dropMark source.toList) = marks source.toList - 1 := marks_dropMark _
  have second := marks_dropMark (dropMark source.toList)
  rcases Nat.lt_or_gt_of_ne h with lt | gt
  · -- no second mark is dropped
    have e : dropMark (unmarked source).toList = dropMark source.toList := by
      rw [toList_unmarked, dropMark_of_marks (by omega)]
    exact .of_unmarked (Format.detectIn_congr e) (ofJson_congr e) (ofScript_congr e)
  · -- a mark is left on either way
    have left : 0 < marks (dropMark source.toList) := by omega
    have left' : 0 < marks (dropMark (unmarked source).toList) := by
      rw [toList_unmarked]
      omega
    refine .of_unmarked ?_ ?_ ?_
    · exact (Format.detectIn_marked left').trans (Format.detectIn_marked left).symm
    · rw [ofJson_marked left', ofJson_marked left]
    · rw [ofScript_marked left', ofScript_marked left]

/-- In a given format a source is read from what two dropped marks leave of it. -/
theorem parse_congr {text : String} (h : dropMark (unmarked text).toList =
    dropMark (unmarked source).toList) (format : Format) :
    parse format text = parse format source := by
  have resolve := format.resolve_congr (Format.detectIn_congr h)
  have json := ofJson_congr h
  have script := ofScript_congr h
  unfold unmarked at resolve json script
  rw [parse, parse, resolve, json, script]

/-- Every way reads a source alike exactly when it does not begin with just two marks.  Behind two
of them the readers refuse the second one and the format shows as that of a script, while in a given
format the source is read as if it began with none. -/
theorem agrees_iff (source : String) :
    (Agrees source ↔ marks source.toList ≠ 2) ∧
      (marks source.toList = 2 →
        ofJson source = .error (.json ⟨.valueMissing, Position.start⟩) ∧
          ofScript source = .error (.script ⟨.unexpected byteOrderMark, Position.start⟩) ∧
          Format.detect source = .script ∧
          ∀ format, parse format source =
            parse format (String.ofList (source.toList.drop 2))) := by
  have first : marks (dropMark source.toList) = marks source.toList - 1 := marks_dropMark _
  have second := marks_dropMark (dropMark source.toList)
  refine ⟨⟨fun h two => ?_, Agrees.of_marks⟩, fun two => ?_⟩
  · -- the reader of scripts would have found the mark that was dropped
    have left : 0 < marks (dropMark source.toList) := by omega
    have found := marks_of_ofScript (h.script.trans (ofScript_marked left))
    rw [String.toList_ofList] at found
    omega
  · have left : 0 < marks (dropMark source.toList) := by omega
    refine ⟨ofJson_marked left, ofScript_marked left, Format.detectIn_marked left, ?_⟩
    have none : marks (dropMark (dropMark source.toList)) = 0 := by omega
    refine fun format => parse_congr ?_ format
    rw [toList_unmarked, toList_unmarked, String.toList_ofList, drop_two_of_marks two,
      dropMark_of_marks none, dropMark_of_marks none]

/-- One mark, and two of them. -/
theorem agrees_iff_two :
    Agrees "\ufeff\u3000[]" ∧
      marks "\ufeff\ufeff[]".toList = 2 ∧
      ofJson "\ufeff\ufeff[]" = .error (.json ⟨.valueMissing, Position.start⟩) ∧
      parse .auto "\ufeff\ufeff[]" = parse .auto "[]" :=
  ⟨(agrees_iff _).1.mpr (by decide), by decide, ((agrees_iff _).2 (by decide)).1,
    ((agrees_iff _).2 (by decide)).2.2.2 .auto⟩

/-- Behind two marks a menu is read as JSON, and refused by the reader of JSON. -/
theorem parse_ne_ofJson :
    parse .json "\ufeff\ufeff[]" = .ok ⟨[]⟩ ∧
      ofJson "\ufeff\ufeff[]" = .error (.json ⟨.valueMissing, Position.start⟩) ∧
      ¬ Agrees "\ufeff\ufeff[]" := by
  have read : parse .json "\ufeff\ufeff[]" = .ok ⟨[]⟩ := rfl
  have refused : ofJson "\ufeff\ufeff[]" = .error (.json ⟨.valueMissing, Position.start⟩) := rfl
  refine ⟨read, refused, fun h => ?_⟩
  exact nomatch read.symm.trans (h.json.trans refused)

end Outline

end Sidebar
