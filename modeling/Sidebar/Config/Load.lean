import Sidebar.Config.Draft
import Sidebar.Config.Template

/-!
# Config — loading

A configuration comes from a file that is named, or else from the nearest `navmenu.toml` at or
above the working directory, or else is the standard one.  The source path of a file is relative
to the directory the file is in.  Settings come last.  What a file says is valid, and so is what
the settings make of it.

* `load_none`: without settings the configuration is that of the file.
-/

namespace Sidebar

/-! ### Drafts -/

namespace Draft

/-- The names of the variables that a draft refers to. -/
def names (d : Draft) : List String :=
  (d.sourcePath.toList ++ d.linkBase.toList).flatMap fun s => (Template.read s.toList).names

/-- A text with its references resolved; none stays none. -/
def resolveField (lookup : String → Option String) (field : TemplateField) :
    Option String → Except Config.Fault (Option String)
  | none   => .ok none
  | some s =>
    match Template.expand lookup s with
    | .ok t       => .ok (some t)
    | .error name => .error (.unset field name)

/-- The draft with its references resolved. -/
def resolve (lookup : String → Option String) (d : Draft) : Except Config.Fault Draft := do
  let sourcePath ← resolveField lookup .sourcePath d.sourcePath
  let linkBase ← resolveField lookup .linkBase d.linkBase
  .ok { d with sourcePath := sourcePath, linkBase := linkBase }

/-- The configuration of the draft in a file. -/
def toConfig (path : String) (d : Draft) : Config where
  sourcePath :=
    FilePath.join ((FilePath.parent? path).getD ".") (d.sourcePath.getD Config.defaultSource)
  format := d.format.getD .auto
  style := d.style
  indent := d.indent
  maxDepth := d.maxDepth
  linkBase := d.linkBase
  path? := some path

end Draft

/-! ### Configurations -/

namespace Config

/-- The name of a configuration file where none is named. -/
def fileName : String := "navmenu.toml"

variable {m : Type → Type} [Monad m]

/-- The values of some variables of a host. -/
def lookUp (host : Host m) (names : List String) : m (String → Option String) := do
  let found ← names.mapM fun name => do return (name, ← host.environment name)
  return fun name => (found.lookup name).join

/-- The configuration of a file. -/
def loadFile (host : Host m) (path : String) : m (Except Fault Config) := do
  match ← host.readFile path with
  | .error fault => return .error (.unreadable fault)
  | .ok text =>
    match Draft.read text with
    | none   => return .error .malformed
    | some d =>
      let lookup ← lookUp host d.names
      return (d.resolve lookup).bind fun d => (d.toConfig path).validate

/-- The configuration files at and above a directory, from the inside out. -/
def candidates (directory : String) : List String :=
  (FilePath.upward directory).map fun d => FilePath.join d fileName

/-- The configuration before settings. -/
def loadBase (host : Host m) : Option String → m (Except Fault Config)
  | some path => do
    if ← host.hasEntry path then loadFile host path else return .error (.notFound path)
  | none => do
    let directory ← host.directory
    match ← (candidates directory).findM? host.hasEntry with
    | some path => loadFile host path
    | none      => return .ok (standard directory)

/-- Settings on top of a configuration. -/
def layer : Option Settings → Config → Except Fault Config
  | none, c   => .ok c
  | some s, c => (c.override s).validate

/-- The configuration of the named file, or of the one that is found, with the settings. -/
def load (host : Host m) (path : Option String) (settings : Option Settings) :
    m (Except Fault Config) := do
  let base ← loadBase host path
  return base.bind (layer settings)

theorem load_none [LawfulMonad m] (host : Host m) (path : Option String) :
    load host path none = loadBase host path := by
  unfold load
  have same : (fun base : Except Fault Config => (pure (base.bind (layer none)) : m _)) = pure := by
    funext base
    cases base <;> rfl
  rw [same, bind_pure]

end Config

end Sidebar
