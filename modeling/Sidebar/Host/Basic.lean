import Sidebar.Host.FilePath

/-!
# Host — what the program sees of its surroundings

A host has a working directory, files that can be read, and variables.  It answers in a monad of
its own, so that one program runs on the machine and on a host that is kept in memory.  Some paths
lead nowhere on any host, because of how they are written.
-/

namespace Sidebar

/-- Why a file cannot be read. -/
inductive ReadFault where
  | missing
  | notADirectory
  | isADirectory
  | nameTooLong
  | zeroInName
  | notUnicode
  | other (text : String)
deriving DecidableEq, Repr

/-- The wording of a fault. -/
def ReadFault.message : ReadFault → String
  | .missing       => "No such file or directory (os error 2)"
  | .notADirectory => "Not a directory (os error 20)"
  | .isADirectory  => "Is a directory (os error 21)"
  | .nameTooLong   => "File name too long (os error 36)"
  | .zeroInName    => "file name contained an unexpected NUL byte"
  | .notUnicode    => "stream did not contain valid UTF-8"
  | .other text    => text

namespace FilePath

/-- The greatest number of bytes in a name. -/
def maxNameSize : Nat := 255

/-- The greatest number of bytes in a path. -/
def maxSize : Nat := 4095

/-- What is wrong with a path on its own. -/
def fault? (path : String) : Option ReadFault :=
  if path.toList.contains '\x00' then some .zeroInName
  else if maxSize < path.utf8ByteSize then some .nameTooLong
  else if path.isEmpty then some .missing
  else none

end FilePath

/-- The surroundings of the program.  Paths are relative to the working directory, which itself
is absolute. -/
structure Host (m : Type → Type) where
  directory : m String
  hasEntry : String → m Bool
  readFile : String → m (Except ReadFault String)
  environment : String → m (Option String)

end Sidebar
