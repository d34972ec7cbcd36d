import Sidebar.Command.Arguments
import Sidebar.Config.Basic
import Sidebar.Json.Writer

/-!
# Command — commands

Five commands work on a menu: drawing it, finding nodes, the trail to a node, checking it, and
writing it as a document.  Four switches go with every command and may stand in front of it or
behind it; behind it they count more.  The source may also come from a variable, which counts
less than the switches.
-/

namespace Sidebar

open Sidebar.Arguments

/-- A command with what it was given. -/
inductive Command where
  | render (settings : Settings) (url : Option String)
  | find (url : String) (all : Bool)
  | breadcrumbs (url separator : String)
  | check (shared : Bool)
  | document (layout : Json.Layout)
deriving Repr

/-- A command line. -/
structure Invocation where
  config : Option String
  source : Option String
  format : Option Format
  verbose : Bool
  command : Command

namespace Command

/-- What stands between the labels of a trail where nothing is given. -/
def defaultSeparator : String := " > "

/-- The number that a text denotes: digits, with an optional sign in front. -/
def count? (s : String) : Option Nat :=
  let digits := match s.toList with
    | '+' :: ds => ds
    | ds        => ds
  if digits.isEmpty || !digits.all Char.isDigit then none
  else
    let n := digits.foldl (fun n c => n * 10 + (c.toNat - 48)) 0
    if n < Config.countBound then some n else none

/-! ### Switches -/

/-- A switch whose value is any text. -/
def textSwitch (name : String) (letter : Option Char) : Switch :=
  ⟨name, letter, .value fun _ => true⟩

/-- A switch whose value is a path. -/
def pathSwitch (name : String) (letter : Option Char) : Switch :=
  ⟨name, letter, .value fun s => !s.isEmpty⟩

/-- A switch that is a mark. -/
def markSwitch (name : String) (letter : Option Char) : Switch :=
  ⟨name, letter, .mark⟩

/-- The switches that go with every command. -/
def globalSwitches : List Switch := [
  pathSwitch "config" (some 'c'),
  pathSwitch "source" (some 's'),
  ⟨"format", some 'f', .value fun s => (Format.ofName? s).isSome⟩,
  markSwitch "verbose" (some 'v'),
  ⟨"help", some 'h', .notice .help⟩]

/-! ### Forms -/

/-- How a command is written, and the command that its arguments make. -/
structure Form where
  name : String
  switches : List Switch
  words : List String
  build : Reading → List String → Command

/-- The word at an index; there are as many as the form has. -/
def wordAt (words : List String) (i : Nat) : String :=
  words[i]?.getD ""

/-- The commands. -/
def forms : List Form := [
  { name := "render"
    switches := [
      ⟨"style", none, .value fun s => (Style.ofName? s).isSome⟩,
      ⟨"max-depth", some 'd', .value fun s => (count? s).isSome⟩,
      textSwitch "link-prefix" none,
      textSwitch "url" (some 'u')]
    words := []
    build := fun r _ => .render {
      Settings.none with
      style := (r.value? "style").bind Style.ofName?
      maxDepth := (r.value? "max-depth").bind count?
      linkBase := r.value? "link-prefix" } (r.value? "url") },
  { name := "find"
    switches := [markSwitch "all" (some 'a')]
    words := ["URL"]
    build := fun r words => .find (wordAt words 0) (r.has "all") },
  { name := "breadcrumbs"
    switches := [textSwitch "separator" none]
    words := ["URL"]
    build := fun r words =>
      .breadcrumbs (wordAt words 0) ((r.value? "separator").getD defaultSeparator) },
  { name := "check"
    switches := [markSwitch "shared" none]
    words := []
    build := fun r _ => .check (r.has "shared") },
  { name := "export"
    switches := [markSwitch "pretty" (some 'p')]
    words := []
    build := fun r _ => .document (if r.has "pretty" then .indented else .compact) }]

/-- The word that asks for help. -/
def helpWord : String := "help"

/-- What may stand in front of a command. -/
def topLevel : Level where
  switches := globalSwitches ++ [⟨"version", some 'V', .notice .version⟩]
  commands := forms.map (·.name) ++ [helpWord]
  words := 0

/-- What may stand behind a command. -/
def Form.level (f : Form) : Level where
  switches := f.switches ++ globalSwitches
  commands := []
  words := f.words.length

/-- The command of a form, if no word is missing. -/
def Form.command (f : Form) (r : Reading) : Except Halt Command :=
  match f.words[r.words.length]? with
  | some what => .error (.fault (.wordMissing what))
  | none      => .ok (f.build r r.words)

/-! ### Command lines -/

/-- The variable that may name the source. -/
def sourceVariable : String := "NAVMENU_SOURCE"

/-- The source that the switch of a level gives.  Without one the variable counts, and it may not
be empty. -/
def levelSource (named : Option String) (r : Reading) : Except Halt (Option String) :=
  match r.value? "source", named with
  | some s, _ => .ok (some s)
  | none, some "" => .error (.fault (.badValue "source" ""))
  | none, _       => .ok none

/-- The command line that arguments make; `named` is the value of the source variable. -/
def parse (named : Option String) (args : List String) : Except Halt Invocation := do
  let top ← Arguments.read topLevel none .empty args
  match top.command? with
  | none              => .error (.fault .commandMissing)
  | some (name, args) =>
    match forms.find? (·.name == name) with
    | none =>
      match args.find? fun w => !topLevel.commands.contains w with
      | some w => .error (.fault (.unknownCommand w))
      | none   => .error (.notice .help)
    | some form => do
      let r ← Arguments.read form.level none .empty args
      let command ← form.command r
      let behind ← levelSource named r
      let before ← levelSource named top
      .ok {
        config := (r.value? "config").or (top.value? "config")
        source := (behind.or before).or named
        format := ((r.value? "format").or (top.value? "format")).bind Format.ofName?
        verbose := r.has "verbose" || top.has "verbose"
        command := command }

end Command

end Sidebar
