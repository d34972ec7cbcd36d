/-!
# Command — reports

A report is what a run of the program leaves behind: a code, and what it has written, piece by
piece, to the output and as messages about the run.  A message has a tone, which shows as a colour
where colours are wanted.
-/

namespace Sidebar

/-- The tone of a message. -/
inductive Tone where
  | plain
  | highlight
  | success
  | failure
deriving DecidableEq, Repr

/-- The codes that begin a tone on a terminal. -/
def Tone.codes : Tone → String
  | .plain     => ""
  | .highlight => "\x1b[36m\x1b[1m"
  | .success   => "\x1b[32m"
  | .failure   => "\x1b[31m"

/-- A line about a run. -/
structure Message where
  tone : Tone
  text : String
deriving DecidableEq, Repr

/-- The line as it is written, with or without colours. -/
def Message.line (colours : Bool) (msg : Message) : String :=
  if colours && msg.tone != .plain then msg.tone.codes ++ msg.text ++ "\x1b[0m\n"
  else msg.text ++ "\n"

/-- One thing that a run writes: a piece of its output, or a message. -/
inductive Write where
  | output (text : String)
  | message (msg : Message)
deriving DecidableEq, Repr

namespace Write

/-- The piece of output. -/
def output? : Write → Option String
  | .output text => some text
  | .message _   => none

/-- The message. -/
def message? : Write → Option Message
  | .output _    => none
  | .message msg => some msg

end Write

/-- What a run leaves behind: its code, and all that it has written, in order. -/
structure Report where
  code : Nat
  writes : List Write
deriving DecidableEq, Repr

namespace Report

/-- The report of a run that went well. -/
def done (writes : List Write) : Report := ⟨0, writes⟩

/-- The report of a run that failed: the failure is the last that it writes. -/
def failed (writes : List Write) (text : String) : Report :=
  ⟨1, writes ++ [.message ⟨.failure, "Error: " ++ text⟩]⟩

/-- The report of a run that did not begin because of its arguments. -/
def refused (text : String) : Report := ⟨2, [.message ⟨.failure, "error: " ++ text⟩]⟩

/-- The output. -/
def output (r : Report) : String :=
  String.join (r.writes.filterMap Write.output?)

/-- The messages. -/
def messages (r : Report) : List Message :=
  r.writes.filterMap Write.message?

/-- The messages as they are written. -/
def messageText (r : Report) (colours : Bool) : String :=
  String.join (r.messages.map (Message.line colours))

end Report

end Sidebar
