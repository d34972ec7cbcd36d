/-!
# Host — file paths

A path is a text of names parted by slashes.  It is kept as it was given: joining and taking the
parent add and drop whole names and leave the rest of the text alone.  Needless slashes and names
`.` inside a path do not count as names.
-/

namespace Sidebar.FilePath

/-- The path begins at the root. -/
def isAbsolute (path : List Char) : Bool :=
  path.head? == some '/'

/-- The second path seen from the first one. -/
def join (base path : String) : String :=
  if isAbsolute path.toList then path
  else if base.isEmpty || base.toList.getLast? == some '/' then base ++ path
  else base ++ "/" ++ path

/-! ### Parents -/

/-- The length of what stands in front of the names: the slash of the root, or a leading `.`. -/
def lead : List Char → Nat
  | '/' :: _        => 1
  | ['.']           => 1
  | '.' :: '/' :: _ => 1
  | _               => 0

/-- The text between two slashes is a name. -/
def isName (s : List Char) : Bool :=
  s != [] && s != ['.']

/-- Where the names end, `n` being the place in the path and `name` the text since the last
slash. -/
def nameEnds (n : Nat) (name : List Char) : List Char → List Nat
  | []       => if isName name then [n] else []
  | '/' :: s => (if isName name then [n] else []) ++ nameEnds (n + 1) [] s
  | c :: s   => nameEnds (n + 1) (name ++ [c]) s

/-- The path without its last name.  The root and the empty path have no parent. -/
def parent? (path : String) : Option String :=
  let s := path.toList
  match (nameEnds (lead s) [] (s.drop (lead s))).reverse with
  | _ :: e :: _ => some (String.ofList (s.take e))
  | [_]         => some (String.ofList (s.take (lead s)))
  | []          => if s.head? = some '.' then some "" else none

/-- A path and the directories above it, from the inside out; at most the first number of them. -/
def upwardFrom : Nat → String → List String
  | 0, _        => []
  | n + 1, path => path :: (match parent? path with
    | none   => []
    | some p => upwardFrom n p)

/-- A path and the directories above it, from the inside out. -/
def upward (path : String) : List String :=
  upwardFrom (path.length + 1) path

end Sidebar.FilePath
