/-!
# Command — arguments

An argument list is read by the switches that a level of the command line knows.  A switch is
written with its long name or its letter; letters may be joined behind one dash.  A value follows
as an argument of its own, behind a sign `=`, or right behind the letter.  Two dashes end the
switches.  What is neither a switch nor a value is a word: the name of a command, behind which the
next level begins, or one of the words that the level takes.

* `Reading.give_given`: a switch that is taken is found again.
-/

namespace Sidebar.Arguments

/-- What is shown instead of running a command. -/
inductive Notice where
  | help
  | version
deriving DecidableEq, Repr

/-- What is wrong with an argument list. -/
inductive Fault where
  | unknownSwitch (word : String)
  | valueMissing (switch : String)
  | valueSurplus (switch : String)
  | badValue (switch value : String)
  | repeated (switch : String)
  | surplusWord (word : String)
  | wordMissing (what : String)
  | commandMissing
  | unknownCommand (word : String)
deriving DecidableEq, Repr

/-- The wording of a fault. -/
def Fault.message : Fault → String
  | .unknownSwitch word   => s!"unexpected argument `{word}`"
  | .valueMissing name    => s!"`--{name}` needs a value"
  | .valueSurplus name    => s!"`--{name}` takes no value"
  | .badValue name value  => s!"invalid value `{value}` for `--{name}`"
  | .repeated name        => s!"`--{name}` is given twice"
  | .surplusWord word     => s!"unexpected argument `{word}`"
  | .wordMissing what     => s!"`{what}` is missing"
  | .commandMissing       => "a command is missing"
  | .unknownCommand word  => s!"unknown command `{word}`"

/-- Why no command is run. -/
inductive Halt where
  | notice (n : Notice)
  | fault (f : Fault)
deriving DecidableEq, Repr

/-- What a switch does: it is a mark, it has a value that passes a test, or it asks for a
notice. -/
inductive Effect where
  | mark
  | value (accepts : String → Bool)
  | notice (n : Notice)

/-- A switch with its long name and its letter. -/
structure Switch where
  name : String
  letter : Option Char
  effect : Effect

/-- What one level of a command line knows: switches, commands, and a number of words. -/
structure Level where
  switches : List Switch
  commands : List String
  words : Nat

/-- What has been read on a level: the switches with their values, the words, and the command with
the arguments behind it. -/
structure Reading where
  given : List (String × String)
  words : List String
  command? : Option (String × List String)

/-- Nothing has been read. -/
def Reading.empty : Reading := ⟨[], [], none⟩

namespace Reading

/-- The value of a switch. -/
def value? (r : Reading) (name : String) : Option String :=
  r.given.lookup name

/-- The switch has been given. -/
def has (r : Reading) (name : String) : Bool :=
  (r.value? name).isSome

/-- Takes a switch and its value. -/
def give (r : Reading) (name value : String) : Except Halt Reading :=
  if r.has name then .error (.fault (.repeated name))
  else .ok { r with given := (name, value) :: r.given }

theorem give_given {r r' : Reading} {name value : String} (h : r.give name value = .ok r') :
    r'.value? name = some value := by
  unfold give at h
  split at h
  · cases h
  · cases h
    simp [value?]

/-- Takes a value that has to pass the test of its switch. -/
def giveValue (r : Reading) (name : String) (accepts : String → Bool) (value : String) :
    Except Halt Reading :=
  if accepts value then r.give name value else .error (.fault (.badValue name value))

/-- Takes words, as many as the level allows. -/
def addWords (r : Reading) (level : Level) : List String → Except Halt Reading
  | []      => .ok r
  | w :: ws =>
    if r.words.length < level.words then
      addWords { r with words := r.words ++ [w] } level ws
    else if level.commands.isEmpty then .error (.fault (.surplusWord w))
    else .error (.fault (.unknownCommand w))

end Reading

/-! ### Reading -/

/-- A switch that waits for its value, and the test that the value has to pass. -/
abbrev Waiting : Type := Option (String × (String → Bool))

/-- Nothing may come here that is not a value. -/
def mustNotWait : Waiting → Except Halt Unit
  | some (name, _) => .error (.fault (.valueMissing name))
  | none           => .ok ()

/-- Reads a switch by its long name, with the value behind its sign `=` if there is one. -/
def long (level : Level) (r : Reading) (name : String) (value : Option String) :
    Except Halt (Reading × Waiting) :=
  match level.switches.find? (·.name == name) with
  | none => .error (.fault (.unknownSwitch ("--" ++ name)))
  | some switch =>
    match switch.effect, value with
    | .mark, none            => do let r ← r.give name ""; .ok (r, none)
    | .mark, some _          => .error (.fault (.valueSurplus name))
    | .value accepts, none   => .ok (r, some (name, accepts))
    | .value accepts, some v => do let r ← r.giveValue name accepts v; .ok (r, none)
    | .notice n, none        => .error (.notice n)
    | .notice _, some _      => .error (.fault (.valueSurplus name))

/-- Reads switches by their letters. -/
def letters (level : Level) (r : Reading) : List Char → Except Halt (Reading × Waiting)
  | []      => .ok (r, none)
  | c :: cs =>
    match level.switches.find? (·.letter == some c) with
    | none => .error (.fault (.unknownSwitch (String.ofList ['-', c])))
    | some switch =>
      match switch.effect, cs with
      | .mark, cs => do
        let r ← r.give switch.name ""
        letters level r cs
      | .value accepts, []        => .ok (r, some (switch.name, accepts))
      | .value accepts, '=' :: cs => do
        let r ← r.giveValue switch.name accepts (String.ofList cs)
        .ok (r, none)
      | .value accepts, cs => do
        let r ← r.giveValue switch.name accepts (String.ofList cs)
        .ok (r, none)
      | .notice n, _ => .error (.notice n)

/-- The name and the value of a long switch, split at the first sign `=`. -/
def splitValue (s : List Char) : String × Option String :=
  match s.dropWhile (· != '=') with
  | []     => (String.ofList s, none)
  | _ :: v => (String.ofList (s.takeWhile (· != '=')), some (String.ofList v))

/-- Reads the arguments of a level up to a command or their end. -/
def read (level : Level) (waiting : Waiting) (r : Reading) : List String → Except Halt Reading
  | []      => do mustNotWait waiting; .ok r
  | w :: ws =>
    match w.toList with
    | ['-', '-'] => do
      mustNotWait waiting
      r.addWords level ws
    | '-' :: '-' :: s => do
      mustNotWait waiting
      let (name, value) := splitValue s
      let (r, waiting) ← long level r name value
      read level waiting r ws
    | '-' :: c :: s => do
      mustNotWait waiting
      let (r, waiting) ← letters level r (c :: s)
      read level waiting r ws
    | _ =>
      match waiting with
      | some (name, accepts) => do
        let r ← r.giveValue name accepts w
        read level none r ws
      | none =>
        if w ∈ level.commands then .ok { r with command? := some (w, ws) }
        else do
          let r ← r.addWords level [w]
          read level none r ws

end Sidebar.Arguments
