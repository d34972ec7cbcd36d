import Sidebar.Command.Run

/-!
# Main — the program on this machine

The machine as a host, and the entry point: what the run has written is written out, messages to
the error stream.
-/

namespace Sidebar

/-- What a system error says about reading a file. -/
def ReadFault.ofError : IO.Error → ReadFault
  | .noFileOrDirectory _ _ _      => .missing
  | .inappropriateType _ code _   => if code = 20 then .notADirectory else .isADirectory
  | .invalidArgument _ 36 _       => .nameTooLong
  | e                             => .other (toString e)

/-- The machine the program runs on. -/
def Host.machine : Host IO where
  directory := do return (← IO.currentDir).toString
  hasEntry path := do
    try
      discard (IO.FS.realPath path)
      return true
    catch _ => return false
  readFile path := do
    if let some fault := FilePath.fault? path then return .error fault
    try
      let bytes ← IO.FS.readBinFile path
      match String.fromUTF8? bytes with
      | some s => return .ok s
      | none   => return .error .notUnicode
    catch e => return .error (.ofError e)
  environment name := IO.getEnv name

end Sidebar

open Sidebar in
/-- Runs the program. -/
def main (args : List String) : IO UInt32 := do
  let report ← Program.run Host.machine args
  let colours ← Program.wantsColours Host.machine
  for w in report.writes do
    match w with
    | .output text => IO.print text
    | .message msg => IO.eprint (msg.line colours)
  return report.code.toUInt32
