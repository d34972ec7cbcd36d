import Sidebar.Proofs.Outline.Shape
import Sidebar.Proofs.Json.Value
import Sidebar.Proofs.Script.Document
import Sidebar.Source

/-!
# Source — JSON menus are scripts

A JSON document that holds strings, sequences and records only is a script of the same value, so
a JSON menu is one menu whichever format it is read in.

* `Json.Denotes.toScript`: the grammar of JSON, scalars aside, lies within that of scripts.
* `Outline.ofJson_eq_ok`, `Outline.ofScript_eq_ok`: the menus of sources, by grammar and shape.
* `parse_eq_ok_of_ofJson`: every format reads a JSON menu alike.
-/

namespace Sidebar.Json

open Sidebar.Text

/-! ### Tokens -/

theorem isBlank_of_isSpace {c : Char} (h : isSpace c) : isBlank c := by
  simp only [isSpace, Bool.or_eq_true, beq_iff_eq] at h
  rcases h with ((rfl | rfl) | rfl) | rfl <;> decide

theorem Space.gap {s r : List Char} (h : Space s r) : Script.Gap s r := by
  obtain ⟨w, hw, rfl⟩ := h
  induction w with
  | nil => exact .none
  | cons c w ih =>
      rw [List.forall_mem_cons] at hw
      exact .blank (isBlank_of_isSpace hw.1) (ih hw.2)

theorem Quoted.toScript {s r : List Char} {k : String} (h : Quoted s k r) :
    Script.Quoted s k r := by
  obtain ⟨t, rfl, ht⟩ := h
  refine ⟨'"', t, by decide, rfl, ht.mono ?_ (by decide)⟩
  rintro c ⟨hq, hb, hc⟩
  exact ⟨hq, hb, fun e => hc (e ▸ by decide)⟩

/-! ### Values -/

mutual

theorem Denotes.toScript : {s r : List Char} → {v : Value} → Denotes s v r → v.Plain →
    Script.Denotes s v r
  | _, _, _, .string h, _ => .string h.toScript
  | _, _, _, .sequence h, .sequence p => .sequence (h.toScript p)
  | _, _, _, .record h hd, .record _ p => .record (h.toScript p) hd

theorem Items.toScript : {s r : List Char} → {vs : List Value} → Items s vs r →
    (∀ v ∈ vs, v.Plain) → Script.Items s vs r
  | _, _, _, .close g, _ => .close g.gap
  | _, _, _, .first g h t, p => by
      rw [List.forall_mem_cons] at p
      exact t.toScript p.2 g.gap (h.toScript p.1)

/-- The comma between two items belongs to the first one. -/
theorem MoreItems.toScript : {s r : List Char} → {vs : List Value} → MoreItems s vs r →
    (∀ v ∈ vs, v.Plain) → ∀ {s₀ s₁ v}, Script.Gap s₀ s₁ → Script.Denotes s₁ v s →
      Script.Items s₀ (v :: vs) r
  | _, _, _, .close g, _, _, _, _, g₀, hv => .last g₀ hv g.gap
  | _, _, _, .next g₁ g₂ h t, p, _, _, _, g₀, hv => by
      rw [List.forall_mem_cons] at p
      exact .next g₀ hv g₁.gap (t.toScript p.2 g₂.gap (h.toScript p.1))

theorem Field.toScript : {s r : List Char} → {f : String × Value} → Field s f r → f.2.Plain →
    Script.Field s f r
  | _, _, _, .mk hk g₁ g₂ h, p => .mk (.inr hk.toScript) g₁.gap g₂.gap (h.toScript p)

theorem Fields.toScript : {s r : List Char} → {fs : List (String × Value)} → Fields s fs r →
    (∀ f ∈ fs, f.2.Plain) → Script.Fields s fs r
  | _, _, _, .close g, _ => .close g.gap
  | _, _, _, .first g h t, p => by
      rw [List.forall_mem_cons] at p
      exact t.toScript p.2 g.gap (h.toScript p.1)

/-- The comma between two fields belongs to the first one. -/
theorem MoreFields.toScript : {s r : List Char} → {fs : List (String × Value)} →
    MoreFields s fs r → (∀ f ∈ fs, f.2.Plain) → ∀ {s₀ s₁ f}, Script.Gap s₀ s₁ →
      Script.Field s₁ f s → Script.Fields s₀ (f :: fs) r
  | _, _, _, .close g, _, _, _, _, g₀, hf => .last g₀ hf g.gap
  | _, _, _, .next g₁ g₂ h t, p, _, _, _, g₀, hf => by
      rw [List.forall_mem_cons] at p
      exact .next g₀ hf g₁.gap (t.toScript p.2 g₂.gap (h.toScript p.1))

end

end Sidebar.Json

namespace Sidebar

open Sidebar.Text Sidebar.Shape

/-- The text is at fault, not the menu that it holds. -/
def LoadFault.isSyntax : LoadFault → Bool
  | .json _   => true
  | .script _ => true
  | .misfit _ => false

/-! ### Documents of outlines -/

section
variable {s : List Char} {v : Value} {o : Outline}

/-- The document of an outline begins with a bracket, blanks aside. -/
theorem Json.Document.bracket (h : Json.Document s v) (ho : IsOutline v o) :
    ∃ w c t, (∀ d ∈ w, Json.isSpace d) ∧ (c = '[' ∨ c = '{') ∧ s = w ++ c :: t := by
  obtain ⟨s₁, s₂, ⟨w, hw, rfl⟩, hd, -⟩ := h
  cases ho with
  | sequence =>
      cases hd with
      | sequence => exact ⟨w, _, _, hw, .inl rfl, rfl⟩
  | empty =>
      cases hd with
      | record => exact ⟨w, _, _, hw, .inr rfl, rfl⟩
  | record =>
      cases hd with
      | record => exact ⟨w, _, _, hw, .inr rfl, rfl⟩

theorem Json.Document.dropMark_eq (h : Json.Document s v) (ho : IsOutline v o) :
    dropMark s = s := by
  obtain ⟨w, c, t, hw, hc, rfl⟩ := h.bracket ho
  cases w with
  | nil => rcases hc with rfl | rfl <;> rfl
  | cons d w =>
      have hd : d ≠ byteOrderMark := by
        rintro rfl
        exact absurd (hw byteOrderMark List.mem_cons_self) (by decide)
      rw [List.cons_append, dropMark, if_neg hd]

theorem Format.detectIn_eq_json (h : Json.Document (dropMark s) v) (ho : IsOutline v o) :
    Format.detectIn s = .json := by
  obtain ⟨w, c, t, hw, hc, e⟩ := h.bracket ho
  have hb : ∀ d ∈ w, isBlank d := fun d hd => Json.isBlank_of_isSpace (hw d hd)
  rw [detectIn, e, dropWhile_append_eq hb (by rcases hc with rfl | rfl <;> simp <;> decide)]
  rcases hc with rfl | rfl <;> rfl

theorem Json.Document.toScript (h : Json.Document s v) (hp : v.Plain) : Script.Document s v := by
  obtain ⟨s₁, s₂, g, hd, g'⟩ := h
  exact ⟨s₁, s₁, s₂, g.gap, .inl rfl, hd.toScript hp, .inl g'.gap⟩

end

/-! ### The menus of sources -/

namespace Outline

theorem ofJson_eq_ok {source : String} {o : Outline} :
    ofJson source = .ok o ↔ ∃ v, Json.Document (dropMark source.toList) v ∧
      v.nesting ≤ Json.maxNesting ∧ IsOutline v o := by
  simp only [ofJson, Json.read, bind_eq_ok, mapError_ok_iff, Json.document_eq_ok]
  constructor
  · rintro ⟨v, ⟨hv, hn⟩, ho⟩; exact ⟨v, hv, hn, (ofValue_eq_ok hv.distinct).mp ho⟩
  · rintro ⟨v, hv, hn, ho⟩; exact ⟨v, ⟨hv, hn⟩, (ofValue_eq_ok hv.distinct).mpr ho⟩

theorem ofScript_eq_ok {source : String} {o : Outline} :
    ofScript source = .ok o ↔ ∃ v, Script.Document (dropMark source.toList) v ∧
      v.nesting ≤ Script.maxNesting ∧ IsOutline v o := by
  simp only [ofScript, Script.read, bind_eq_ok, mapError_ok_iff, Script.document_eq_ok]
  constructor
  · rintro ⟨v, ⟨hv, hn⟩, ho⟩; exact ⟨v, hv, hn, (ofValue_eq_ok hv.plain.distinct).mp ho⟩
  · rintro ⟨v, hv, hn, ho⟩; exact ⟨v, ⟨hv, hn⟩, (ofValue_eq_ok hv.plain.distinct).mpr ho⟩

theorem ofJson_deep {source : String} {v : Value} (h : Json.Document (dropMark source.toList) v)
    (hn : Json.maxNesting < v.nesting) : ∃ e, ofJson source = .error (.json e) := by
  unfold ofJson
  cases hr : Json.read source with
  | error e => exact ⟨e, rfl⟩
  | ok u =>
      obtain ⟨hu, hm⟩ := Json.document_eq_ok.mp (mapError_ok_iff.mp hr)
      rw [hu.unique h] at hm
      exact absurd hm (Nat.not_le_of_lt hn)

theorem ofScript_deep {source : String} {v : Value}
    (h : Script.Document (dropMark source.toList) v) (hn : Script.maxNesting < v.nesting) :
    ∃ e, ofScript source = .error (.script e) := by
  unfold ofScript
  cases hr : Script.read source with
  | error e => exact ⟨e, rfl⟩
  | ok u =>
      obtain ⟨hu, hm⟩ := Script.document_eq_ok.mp (mapError_ok_iff.mp hr)
      rw [hu.unique h] at hm
      exact absurd hm (Nat.not_le_of_lt hn)

section
variable {source : String} {v : Value} {o : Outline} (h : Json.Document (dropMark source.toList) v)
  (ho : IsOutline v o)

include h ho

/-- What a format makes of the document of an outline. -/
theorem parse_cases (format : Format) : ∃ text : String,
    dropMark text.toList = dropMark source.toList ∧
      (parse format source = ofJson text ∨ parse format source = ofScript text) := by
  -- no second mark can follow the one that is dropped
  refine ⟨String.ofList (dropMark source.toList), ?_, ?_⟩
  · rw [String.toList_ofList, h.dropMark_eq ho]
  · unfold parse
    dsimp only
    split
    · exact .inl rfl
    · exact .inr rfl

/-- A JSON menu within both limits is read in every format. -/
theorem parse_of_document (format : Format) (hn : v.nesting ≤ Json.maxNesting) :
    parse format source = .ok o := by
  obtain ⟨text, e, hp | hp⟩ := parse_cases h ho format
  · rw [hp]
    exact ofJson_eq_ok.mpr ⟨v, by rwa [e], hn, ho⟩
  · rw [hp]
    exact ofScript_eq_ok.mpr ⟨v, by rw [e]; exact h.toScript (ho.plain h.distinct),
      Nat.le_trans hn (by decide), ho⟩

/-- A JSON menu beyond both limits is read in no format. -/
theorem parse_of_document_deep (format : Format) (hn : Script.maxNesting < v.nesting) :
    ∃ e, parse format source = .error e ∧ e.isSyntax := by
  obtain ⟨text, e, hp | hp⟩ := parse_cases h ho format
  · obtain ⟨f, hf⟩ := @ofJson_deep text v (by rwa [e]) (Nat.lt_trans (by decide) hn)
    exact ⟨_, hp.trans hf, rfl⟩
  · have hs := h.toScript (ho.plain h.distinct)
    obtain ⟨f, hf⟩ := @ofScript_deep text v (by rwa [e]) hn
    exact ⟨_, hp.trans hf, rfl⟩

end

end Outline

/-- **JSON menus are scripts**: whatever the reader of JSON takes for a menu, the text shows as
JSON, and every format reads as the same menu. -/
theorem Outline.parse_eq_ok_of_ofJson {source : String} {o : Outline}
    (h : ofJson source = .ok o) :
    Format.detect source = .json ∧ ∀ format, parse format source = .ok o := by
  obtain ⟨v, hv, hn, ho⟩ := ofJson_eq_ok.mp h
  exact ⟨Format.detectIn_eq_json hv ho, fun format => parse_of_document hv ho format hn⟩

/-- A mark, an escape and fields in another order. -/
theorem Outline.parse_eq_ok_of_ofJson_marked :
    ∃ o, ofJson "\ufeff [\x7b\"url\":\"\\u002f\",\"text\":\"Home\"\x7d]" = .ok o ∧
      o.items.map Item.url = ["/"] ∧
      Format.detect "\ufeff [\x7b\"url\":\"\\u002f\",\"text\":\"Home\"\x7d]" = .json ∧
      ∀ format, parse format "\ufeff [\x7b\"url\":\"\\u002f\",\"text\":\"Home\"\x7d]" = .ok o := by
  have urls : (ofJson "\ufeff [\x7b\"url\":\"\\u002f\",\"text\":\"Home\"\x7d]").toOption.map
      (fun o => o.items.map Item.url) = some ["/"] := by
    decide +kernel
  obtain ⟨o, ho, hu⟩ := toOption_map_eq_some.mp urls
  exact ⟨o, ho, hu, parse_eq_ok_of_ofJson ho⟩

end Sidebar
