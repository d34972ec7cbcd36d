import Sidebar.Command.Basic
import Sidebar.Command.Report
import Sidebar.Config.Load
import Sidebar.Outline.Document
import Sidebar.Tree.Source

/-!
# Command — running

A command line is run in steps: its configuration is loaded, the tree is read from the source, and
the command answers from the tree.  Each step may fail, which ends the run, and writes as it goes.

* `Session`: steps that may fail and that write.
* `Invocation.execute`: the steps of each command.
* `Program.run`: the report of a whole run.
-/

namespace Sidebar

/-- Why a command fails. -/
inductive Failure where
  | config (fault : Config.Fault)
  | unreadable (path : String) (fault : ReadFault)
  | unloadable (path : String) (fault : LoadFault)
  | unknownUrl (url : String)

/-- The wording of a failure. -/
def Failure.message : Failure → String
  | .config fault          => fault.message
  | .unreadable path fault => s!"Failed to read {path}: {fault.message}"
  | .unloadable path fault => s!"{path}: {fault.message}"
  | .unknownUrl url        => s!"No navigation node with url `{url}`"

/-! ### Answers -/

namespace Tree

/-- The nodes with an address: all of them, or only the first. -/
def lookUp (t : Tree) (url : String) (all : Bool) : List Nat :=
  if all then t.findAll url else (t.find? url).toList

/-- One line per node: its depth, label and address between tabs. -/
def table (t : Tree) (ns : List Nat) : String :=
  String.join ((ns.filterMap t.cell?).map fun c => s!"{c.depth}\t{c.text}\t{c.url}\n")

/-- The labels from the top level down to the first node with an address. -/
def labelTrail? (t : Tree) (separator url : String) : Option String :=
  (t.find? url).map fun n =>
    String.intercalate separator (((t.trail url ++ [n]).filterMap t.cell?).map (·.text))

/-- The figures of a tree, and the addresses of several nodes if they are wanted. -/
def summary (t : Tree) (listShared : Bool) : String :=
  let depth := match t.maxDepth? with
    | some d => toString d
    | none   => "-"
  let shared := t.shared
  let list := if listShared then shared.map fun e => s!"  {e.1} ({e.2})\n" else []
  s!"nodes: {t.size}\ntop-level: {t.roots.length}\nmax depth: {depth}\n" ++
    s!"shared urls: {shared.length}\n" ++ String.join list

end Tree

/-- The text of a tree, or of the first node with an address, as a configuration wants it. -/
def Config.render (c : Config) (t : Tree) : Option String → Except Failure String
  | none     => .ok (c.renderer.drawTree c.style t)
  | some url =>
    match t.find? url with
    | some n => .ok (c.renderer.draw c.style t n)
    | none   => .error (.unknownUrl url)

/-! ### Sessions -/

/-- Steps that may fail, and that keep what they write. -/
abbrev Session (m : Type → Type) := ExceptT Failure (StateT (List Write) m)

namespace Session

variable {m : Type → Type} [Monad m]

/-- Writes one thing more. -/
def write (w : Write) : Session m Unit :=
  modify (· ++ [w])

/-- Writes a piece of the output. -/
def print (text : String) : Session m Unit :=
  write (.output text)

/-- Writes a message. -/
def say (tone : Tone) (text : String) : Session m Unit :=
  write (.message ⟨tone, text⟩)

/-- Runs a session from its beginning, and reports. -/
def report (x : Session m Unit) : m Report := do
  match ← x.run.run [] with
  | (.ok _, writes)    => return .done writes
  | (.error f, writes) => return .failed writes f.message

end Session

/-! ### Commands -/

/-- The settings of a command. -/
def Command.settings : Command → Settings
  | .render s _ => s
  | _           => .none

namespace Invocation

variable {m : Type → Type} [Monad m]

/-- The settings of a command line. -/
def settings (i : Invocation) : Settings :=
  { i.command.settings with sourcePath := i.source, format := i.format }

/-- Loads the configuration. -/
def loadConfig (host : Host m) (i : Invocation) : Session m Config := do
  match ← (Config.load host i.config (some i.settings) : m _) with
  | .error fault => throw (.config fault)
  | .ok c        => return c

/-- Reads the tree that a configuration leads to. -/
def loadTree (host : Host m) (i : Invocation) (c : Config) : Session m Tree := do
  match ← host.readFile c.sourcePath with
  | .error fault => throw (.unreadable c.sourcePath fault)
  | .ok source   =>
    match Tree.ofSource c.format source with
    | .error fault => throw (.unloadable c.sourcePath fault)
    | .ok t        =>
      if i.verbose then
        Session.say .plain s!"Loaded navigation tree path={c.sourcePath} nodes={t.size}"
      return t

/-- Runs a command. -/
def execute (host : Host m) (i : Invocation) : Session m Unit := do
  match i.command with
  | .render _ url =>
    let c ← i.loadConfig host
    let t ← i.loadTree host c
    let text ← liftExcept (c.render t url)
    Session.print text
  | .find url all =>
    let c ← i.loadConfig host
    let t ← i.loadTree host c
    match t.lookUp url all with
    | []    => throw (.unknownUrl url)
    | found => Session.print (t.table found)
  | .breadcrumbs url separator =>
    let c ← i.loadConfig host
    let t ← i.loadTree host c
    match t.labelTrail? separator url with
    | none       => throw (.unknownUrl url)
    | some trail => Session.print (trail ++ "\n")
  | .check shared =>
    let c ← i.loadConfig host
    Session.say .highlight s!"Checking {c.sourcePath}"
    let t ← i.loadTree host c
    Session.print (t.summary shared)
    Session.say .success "Navigation tree is valid"
  | .document layout =>
    let c ← i.loadConfig host
    let t ← i.loadTree host c
    Session.print (t.toOutline.toJson layout)
    Session.print "\n"
    Session.say .plain s!"Exported {t.size} nodes"

end Invocation

/-! ### The program -/

namespace Program

variable {m : Type → Type} [Monad m]

/-- The name and number of the program. -/
def version : String := "navmenu 0.1.0"

/-- How the program is called. -/
def usage : String :=
  "Usage: navmenu [-c FILE] [-s FILE] [-f FORMAT] [-v] COMMAND\n\n" ++
  "Commands:\n" ++
  "  render [--style STYLE] [-d LEVELS] [--link-prefix PREFIX] [-u URL]\n" ++
  "  find URL [-a]\n" ++
  "  breadcrumbs URL [--separator TEXT]\n" ++
  "  check [--shared]\n" ++
  "  export [-p]\n"

/-- The text of a notice. -/
def noticeText : Arguments.Notice → String
  | .help    => usage
  | .version => version ++ "\n"

/-- Runs the program with its arguments. -/
def run (host : Host m) (args : List String) : m Report := do
  let source ← host.environment Command.sourceVariable
  match Command.parse source args with
  | .ok i                => (i.execute host).report
  | .error (.notice n)   => return .done [.output (noticeText n)]
  | .error (.fault f)    => return .refused f.message

/-- Whether messages are coloured: a variable forces it. -/
def wantsColours (host : Host m) : m Bool := do
  match ← host.environment "CLICOLOR_FORCE" with
  | some s => return s != "0"
  | none   => return false

end Program

end Sidebar
