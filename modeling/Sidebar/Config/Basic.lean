import Sidebar.Host.Basic
import Sidebar.Render.Style
import Sidebar.Source

/-!
# Config — configurations

A configuration says where the menu is and how it is drawn.  It is valid when the indentation is
from one to eight, some level is drawn, and a link prefix with a scheme has one of the two schemes
of the web.  Settings replace parts of a configuration.
-/

namespace Sidebar

/-- Where the menu is, how it is drawn, and which file said so. -/
structure Config where
  sourcePath : String
  format : Format
  style : Style
  indent : Nat
  maxDepth : Option Nat
  linkBase : Option String
  path? : Option String
deriving DecidableEq, Repr

/-- Parts of a configuration that replace those of a file. -/
structure Settings where
  sourcePath : Option String
  format : Option Format
  style : Option Style
  maxDepth : Option Nat
  linkBase : Option String
deriving DecidableEq, Repr

/-- Settings that replace nothing. -/
def Settings.none : Settings := ⟨.none, .none, .none, .none, .none⟩

/-- A text in a configuration that may refer to variables. -/
inductive TemplateField where
  | sourcePath
  | linkBase
deriving DecidableEq, Repr

/-- The name of a field. -/
def TemplateField.name : TemplateField → String
  | .sourcePath => "source.path"
  | .linkBase   => "render.link_prefix"

namespace Config

/-- Where counts end: they are numbers of 64 bits. -/
def countBound : Nat := Nat.pow 2 64

/-- The greatest indentation. -/
def maxIndent : Nat := 8

/-- Why a configuration is invalid. -/
inductive Invalid where
  | indent
  | maxDepth
  | linkBase
deriving DecidableEq, Repr

/-- The wording of a reason. -/
def Invalid.message : Invalid → String
  | .indent   => s!"render.indent must be between 1 and {maxIndent}"
  | .maxDepth => "render.max_depth must be greater than 0"
  | .linkBase => "render.link_prefix must start with http:// or https://"

/-- Why there is no configuration. -/
inductive Fault where
  | notFound (path : String)
  | unreadable (fault : ReadFault)
  | malformed
  | unset (field : TemplateField) (name : String)
  | invalid (reason : Invalid)
deriving DecidableEq, Repr

/-- The wording of a fault. -/
def Fault.message : Fault → String
  | .notFound path    => s!"Configuration file not found: {path}"
  | .unreadable fault => s!"I/O error: {fault.message}"
  | .malformed        => "TOML parse error: malformed configuration file"
  | .unset field name =>
    s!"Environment variable error in {field.name}: $\x7b{name}\x7d not set"
  | .invalid reason   => s!"Configuration error: {reason.message}"

/-! ### Validity -/

/-- The text occurs in another. -/
def occursIn (part : List Char) : List Char → Bool
  | []     => part.isEmpty
  | c :: s => part.isPrefixOf (c :: s) || occursIn part s

theorem occursIn_iff {part s : List Char} : occursIn part s = true ↔ part <:+: s := by
  induction s with
  | nil => rw [occursIn, List.isEmpty_iff, List.infix_nil]
  | cons c s ih =>
    rw [occursIn, Bool.or_eq_true, List.isPrefixOf_iff_prefix, ih, List.infix_cons_iff]

/-- A link prefix has no scheme, or one of the web. -/
def isLinkBase (base : String) : Bool :=
  let s := base.toList
  !occursIn "://".toList s || "http://".toList.isPrefixOf s || "https://".toList.isPrefixOf s

/-- The first reason why a configuration is invalid. -/
def invalid? (c : Config) : Option Invalid :=
  if c.indent = 0 ∨ maxIndent < c.indent then some .indent
  else if c.maxDepth = some 0 then some .maxDepth
  else if c.linkBase.all isLinkBase then none
  else some .linkBase

/-- The configuration, if it is valid. -/
def validate (c : Config) : Except Fault Config :=
  match c.invalid? with
  | some reason => .error (.invalid reason)
  | none        => .ok c

theorem validate_eq_ok {c d : Config} : c.validate = .ok d ↔ c.invalid? = none ∧ c = d := by
  unfold validate
  cases c.invalid? <;> simp

/-! ### Layers -/

/-- The name of a menu file where none is given. -/
def defaultSource : String := "menudata.js"

/-- The configuration of a directory that has no file. -/
def standard (directory : String) : Config where
  sourcePath := FilePath.join directory defaultSource
  format := .auto
  style := .tree
  indent := defaultIndent
  maxDepth := none
  linkBase := none
  path? := none

/-- The configuration with the parts replaced that the settings have. -/
def override (c : Config) (s : Settings) : Config :=
  { c with
    sourcePath := s.sourcePath.getD c.sourcePath
    format := s.format.getD c.format
    style := s.style.getD c.style
    maxDepth := s.maxDepth.or c.maxDepth
    linkBase := s.linkBase.or c.linkBase }

/-- The renderer that a configuration asks for. -/
def renderer (c : Config) : Renderer := ⟨c.maxDepth, c.linkBase, c.indent⟩

end Config

end Sidebar
