import Sidebar.Host.Basic

/-!
# Host — a host in memory

A disk in memory maps places, the names from the root down, to what is there.  The places on the
way to an entry are directories.  A path is walked name by name, and every place it passes has to
be a directory.
-/

namespace Sidebar

/-- What is at a place of a disk. -/
inductive DiskEntry where
  | directory
  | text (content : String)
  | binary
deriving DecidableEq, Repr

/-- The entries of a disk by their places. -/
abbrev Disk : Type := List (List String × DiskEntry)

namespace Disk

/-- The entry at a place. -/
def entry? (disk : Disk) (place : List String) : Option DiskEntry :=
  match disk.find? (·.1 == place) with
  | some e => some e.2
  | none   => if disk.any fun e => place.isPrefixOf e.1 then some .directory else none

/-- The place that some names lead to from another place. -/
def walk (disk : Disk) : List String → List String → Except ReadFault (List String)
  | place, []        => .ok place
  | place, n :: rest =>
    if disk.entry? place ≠ some .directory then .error .notADirectory
    else if n = "" ∨ n = "." then walk disk place rest
    else if n = ".." then walk disk place.dropLast rest
    else if FilePath.maxNameSize < n.utf8ByteSize then .error .nameTooLong
    else if (disk.entry? (place ++ [n])).isSome then walk disk (place ++ [n]) rest
    else .error .missing

theorem walk_dot (disk : Disk) {place : List String} (names : List String)
    (h : disk.entry? place = some .directory) :
    disk.walk place ("." :: names) = disk.walk place names := by
  rw [walk]
  simp [h]

theorem walk_dotDot (disk : Disk) {place : List String} (names : List String)
    (h : disk.entry? place = some .directory) :
    disk.walk place (".." :: names) = disk.walk place.dropLast names := by
  rw [walk]
  simp [h]

/-- The names in a path. -/
def names (path : String) : List String :=
  path.splitOn "/"

/-- The place that a path from the root leads to where every name in it is that of a directory. -/
def placeOf (path : String) : List String :=
  (names path).foldl (fun place n =>
    if n = "" ∨ n = "." then place else if n = ".." then place.dropLast else place ++ [n]) []

/-- The entry that a path leads to from a directory. -/
def find (disk : Disk) (directory path : String) : Except ReadFault DiskEntry := do
  match FilePath.fault? path with
  | some fault => .error fault
  | none       =>
    let start := if FilePath.isAbsolute path.toList then "" else directory
    let place ← disk.walk [] (names start ++ names path)
    match disk.entry? place with
    | some e => .ok e
    | none   => .error .missing

/-- The text of the file that a path leads to. -/
def readFile (disk : Disk) (directory path : String) : Except ReadFault String := do
  match ← disk.find directory path with
  | .directory => .error .isADirectory
  | .text s    => .ok s
  | .binary    => .error .notUnicode

end Disk

/-- The value of a variable among entries `name=value`: what follows the first entry that begins
with the name and a sign `=`. -/
def variableAmong? (entries : List String) (name : String) : Option String :=
  if name.isEmpty then none
  else
    let key := (name ++ "=").toList
    (entries.find? fun e => key.isPrefixOf e.toList).map fun e =>
      String.ofList (e.toList.drop key.length)

/-- The host with a disk, a working directory and variables. -/
def Host.inMemory (disk : Disk) (directory : String) (entries : List String) : Host Id where
  directory := directory
  hasEntry path := (disk.find directory path).toBool
  readFile path := disk.readFile directory path
  environment name := variableAmong? entries name

end Sidebar
