import Sidebar.Config.Load
import Sidebar.Proofs.Text.Step

/-!
# Config — settings on top of a configuration

Settings come after everything a configuration is made from: a fault in that is reported as it is
without them, and what they make of a configuration is checked again.  So no configuration is ever
loaded that breaks a rule, wherever its parts come from.

* `Config.validate_cases`: a configuration is let through, or named for a rule that it breaks.
* `load_some`: what settings add to loading, on any host.
* `load_layered`: the outcome of loading with settings, from that of loading without them.
-/

namespace Sidebar

namespace Config

open Text

/-! ### Rules -/

/-- What the rule of that name asks for. -/
def Meets (c : Config) : Invalid → Prop
  | .indent   => 1 ≤ c.indent ∧ c.indent ≤ 8
  | .maxDepth => c.maxDepth ≠ some 0
  | .linkBase => ∀ base ∈ c.linkBase, "://".toList <:+: base.toList →
      "http://".toList <+: base.toList ∨ "https://".toList <+: base.toList

/-- The configuration meets every rule. -/
def Valid (c : Config) : Prop := ∀ rule, c.Meets rule

variable {c : Config}

theorem isLinkBase_iff {base : String} : isLinkBase base = true ↔
    ("://".toList <:+: base.toList →
      "http://".toList <+: base.toList ∨ "https://".toList <+: base.toList) := by
  simp only [isLinkBase, Bool.or_eq_true, Bool.not_eq_true', List.isPrefixOf_iff_prefix,
    ← Bool.not_eq_true, occursIn_iff, or_assoc]
  exact Decidable.imp_iff_not_or.symm

theorem meets_linkBase : c.Meets .linkBase ↔ c.linkBase.all isLinkBase = true := by
  rw [Meets, Option.all_eq_true]
  exact forall₂_congr fun _ _ => isLinkBase_iff.symm

/-- The first rule that is found broken is broken, and none is found where all are met. -/
theorem invalid?_cases (c : Config) :
    (c.invalid? = none ∧ c.Valid) ∨ ∃ rule, c.invalid? = some rule ∧ ¬ c.Meets rule := by
  unfold invalid?
  by_cases indent : c.indent = 0 ∨ maxIndent < c.indent
  · rw [if_pos indent]
    refine .inr ⟨.indent, rfl, fun ⟨low, high⟩ => ?_⟩
    rcases indent with zero | beyond
    · exact absurd low (by rw [zero]; decide)
    · exact absurd high (Nat.not_le_of_lt beyond)
  by_cases maxDepth : c.maxDepth = some 0
  · rw [if_neg indent, if_pos maxDepth]
    exact .inr ⟨.maxDepth, rfl, not_not_intro maxDepth⟩
  by_cases linkBase : c.linkBase.all isLinkBase = true
  · rw [if_neg indent, if_neg maxDepth, if_pos linkBase]
    obtain ⟨zero, beyond⟩ := not_or.mp indent
    refine .inl ⟨rfl, fun rule => ?_⟩
    cases rule with
    | indent => exact ⟨Nat.one_le_iff_ne_zero.mpr zero, Nat.le_of_not_lt beyond⟩
    | maxDepth => exact maxDepth
    | linkBase => exact meets_linkBase.mpr linkBase
  · rw [if_neg indent, if_neg maxDepth, if_neg linkBase]
    exact .inr ⟨.linkBase, rfl, mt meets_linkBase.mp linkBase⟩

/-- A configuration that meets every rule is let through as it is, and any other is named for a
rule that it breaks. -/
theorem validate_cases (c : Config) :
    (c.Valid ∧ c.validate = .ok c) ∨
      ∃ rule, ¬ c.Meets rule ∧ c.validate = .error (.invalid rule) := by
  rcases c.invalid?_cases with ⟨e, valid⟩ | ⟨rule, e, broken⟩
  · exact .inl ⟨valid, by rw [validate, e]⟩
  · exact .inr ⟨rule, broken, by rw [validate, e]⟩

theorem valid_of_validate {d : Config} (h : c.validate = .ok d) : d.Valid := by
  rcases c.validate_cases with ⟨valid, e⟩ | ⟨rule, -, e⟩
  · obtain rfl := Except.ok.inj (e.symm.trans h)
    exact valid
  · exact nomatch e.symm.trans h

/-! ### What settings replace -/

/-- A part is what the settings say it is, and stays as it was where they say nothing. -/
def Replaced {α : Type} (said : Option α) (before after : α) : Prop :=
  (∀ a, said = some a → after = a) ∧ (said = none → after = before)

/-- What some settings make of a configuration. -/
structure Layered (c : Config) (s : Settings) (c' : Config) : Prop where
  sourcePath : Replaced s.sourcePath c.sourcePath c'.sourcePath
  format : Replaced s.format c.format c'.format
  style : Replaced s.style c.style c'.style
  maxDepth : Replaced (s.maxDepth.map some) c.maxDepth c'.maxDepth
  linkBase : Replaced (s.linkBase.map some) c.linkBase c'.linkBase
  indent : c'.indent = c.indent
  path? : c'.path? = c.path?

theorem replaced_getD {α : Type} (said : Option α) (before : α) :
    Replaced said before (said.getD before) := by
  cases said with
  | none => exact ⟨nofun, fun _ => rfl⟩
  | some a => exact ⟨fun b e => Option.some.inj e, nofun⟩

theorem replaced_or {α : Type} (said before : Option α) :
    Replaced (said.map some) before (said.or before) := by
  cases said with
  | none => exact ⟨nofun, fun _ => rfl⟩
  | some a => exact ⟨fun b e => Option.some.inj e, nofun⟩

theorem layered_override (c : Config) (s : Settings) : c.Layered s (c.override s) where
  sourcePath := replaced_getD _ _
  format := replaced_getD _ _
  style := replaced_getD _ _
  maxDepth := replaced_or _ _
  linkBase := replaced_or _ _
  indent := rfl
  path? := rfl

/-! ### Loading -/

/-- Settings are laid over what is loaded without them. -/
theorem load_some {m : Type → Type} [Monad m] [LawfulMonad m] (host : Host m)
    (path : Option String) (s : Settings) :
    load host path (some s) = do
      let base ← load host path none
      return base.bind fun c => (c.override s).validate := by
  rw [load_none]
  rfl

section
variable {host : Host Id} {path : Option String}

theorem valid_standard (directory : String) : (standard directory).Valid := by
  intro rule
  cases rule with
  | indent => exact (by decide : 1 ≤ defaultIndent ∧ defaultIndent ≤ 8)
  | maxDepth => exact nofun
  | linkBase => exact nofun

/-- Without an effect, a file gives what its text says, resolved and checked. -/
theorem run_loadFile (host : Host Id) (file : String) :
    (loadFile host file).run =
      match (host.readFile file).run with
      | .error fault => .error (.unreadable fault)
      | .ok text =>
        match Draft.read text with
        | none   => .error .malformed
        | some d =>
          (d.resolve (lookUp host d.names).run).bind fun d => (d.toConfig file).validate := by
  simp only [loadFile, Id.run_bind]
  cases (host.readFile file).run with
  | error fault => rfl
  | ok text =>
      dsimp only
      cases Draft.read text <;> rfl

theorem valid_of_loadFile {file : String} (h : (loadFile host file).run = .ok c) : c.Valid := by
  rw [run_loadFile] at h
  split at h
  · exact nomatch h
  split at h
  · exact nomatch h
  · obtain ⟨d, -, hv⟩ := bind_eq_ok.mp h
    exact valid_of_validate hv

/-- Without an effect, the configuration before settings is that of a file or the standard one. -/
theorem run_loadBase_cases (host : Host Id) (path : Option String) :
    (∃ file, (loadBase host path).run = .error (.notFound file)) ∨
      (∃ file, (loadBase host path).run = (loadFile host file).run) ∨
      (loadBase host path).run = .ok (standard host.directory) := by
  cases path with
  | some file =>
      simp only [loadBase, Id.run_bind]
      cases host.hasEntry file with
      | true => exact .inr (.inl ⟨file, rfl⟩)
      | false => exact .inl ⟨file, rfl⟩
  | none =>
      simp only [loadBase, Id.run_bind]
      cases ((candidates host.directory.run).findM? host.hasEntry).run with
      | some file => exact .inr (.inl ⟨file, rfl⟩)
      | none => exact .inr (.inr rfl)

theorem valid_of_loadBase (h : (loadBase host path).run = .ok c) : c.Valid := by
  rcases run_loadBase_cases host path with ⟨file, e⟩ | ⟨file, e⟩ | e
  · exact nomatch e.symm.trans h
  · exact valid_of_loadFile (e.symm.trans h)
  · obtain rfl := Except.ok.inj (e.symm.trans h)
    exact valid_standard _

/-- Loading with settings fails as loading without them does.  Where that gives a configuration,
the settings replace the parts of it that they have and no others, and the result is loaded if it
meets the rules and refused for a rule that it breaks if it does not.  And whatever is loaded, with
settings or without, meets the rules. -/
theorem load_layered (host : Host Id) (path : Option String) (s : Settings) :
    (∀ e, (load host path none).run = .error e → (load host path (some s)).run = .error e) ∧
      (∀ c, (load host path none).run = .ok c → ∃ c', c.Layered s c' ∧
        (c'.Valid → (load host path (some s)).run = .ok c') ∧
        (¬ c'.Valid → ∃ rule, ¬ c'.Meets rule ∧
          (load host path (some s)).run = .error (.invalid rule))) ∧
      ∀ settings c, (load host path settings).run = .ok c → c.Valid := by
  have layers : (load host path (some s)).run =
      (load host path none).run.bind fun c => (c.override s).validate := by
    rw [load_some]
    rfl
  refine ⟨fun e he => ?_, fun c hc => ⟨_, c.layered_override s, ?_⟩, fun settings c h => ?_⟩
  · rw [layers, he]
    rfl
  · have laid : (load host path (some s)).run = (c.override s).validate := by
      rw [layers, hc]
      rfl
    rw [laid]
    rcases (c.override s).validate_cases with ⟨valid, e⟩ | ⟨rule, broken, e⟩
    · exact ⟨fun _ => e, fun invalid => absurd valid invalid⟩
    · exact ⟨fun valid => absurd (valid rule) broken, fun _ => ⟨rule, broken, e⟩⟩
  · obtain ⟨base, hb, hl⟩ := bind_eq_ok.mp h
    cases settings with
    | none =>
        obtain rfl := Except.ok.inj hl
        exact valid_of_loadBase hb
    | some s => exact valid_of_validate hl

/-- A file above the working directory, which refers to a variable. -/
def nested : Host Id where
  directory := "/docs/api"
  hasEntry path := path == "/docs/navmenu.toml"
  readFile _ := .ok "[source]\npath = \"menu.js\"\n[render]\nlink_prefix = \"$\x7bBASE\x7d\"\n"
  environment name := if name = "BASE" then some "http://x/" else none

/-- The file is found and its configuration valid, but settings that draw no level are refused on
top of it. -/
theorem load_layered_nested :
    (load nested none none).run = .ok ⟨"/docs/menu.js", .auto, .tree, 2, none, some "http://x/",
        some "/docs/navmenu.toml"⟩ ∧
      Valid ⟨"/docs/menu.js", .auto, .tree, 2, none, some "http://x/",
        some "/docs/navmenu.toml"⟩ ∧
      ∃ rule, (load nested none (some ⟨none, none, none, some 0, none⟩)).run =
        .error (.invalid rule) := by
  have file : (load nested none none).run.toOption.map id = some ⟨"/docs/menu.js", .auto, .tree, 2,
      none, some "http://x/", some "/docs/navmenu.toml"⟩ := by
    decide +kernel
  obtain ⟨c, hc, rfl⟩ := toOption_map_eq_some.mp file
  obtain ⟨-, laidOver, valid⟩ := load_layered nested none ⟨none, none, none, some 0, none⟩
  obtain ⟨c', laid, -, refused⟩ := laidOver _ hc
  have broken : ¬ c'.Valid := fun valid => valid .maxDepth (laid.maxDepth.1 _ rfl)
  obtain ⟨rule, -, e⟩ := refused broken
  exact ⟨hc, valid none _ hc, rule, e⟩

end

end Config

end Sidebar
