import Sidebar.Config.Basic
import Sidebar.Text.Class

/-!
# Config — texts with references

A template is a text in which `${name}` and `${name:-default}` stand for the value of a variable.
A reference ends at the first closing brace; without one it is ordinary text.  Neither a value nor
a default is looked into again.

References are read by rules of their own, under which `$name` is a reference too and `$$` is the
spelling of one `$` (`Template.scan`).  A text is spelled for these rules first, with every `$`
doubled that opens no brace (`Template.braced`).  Inside a reference nothing undoes the doubling.

* `Template.value_append`: parts are resolved from left to right, each on its own.
-/

namespace Sidebar

/-- A reference to a variable, and what to take where the variable is missing. -/
structure Reference where
  name : List Char
  default? : Option (List Char)
deriving DecidableEq, Repr

/-- A part of a template. -/
inductive Segment where
  | plain (s : List Char)
  | reference (r : Reference)
deriving DecidableEq, Repr

/-- A text as its parts. -/
abbrev Template : Type := List Segment

namespace Reference

/-- The text before and after the first `:-`. -/
def splitDefault : List Char → Option (List Char × List Char)
  | ':' :: '-' :: s => some ([], s)
  | c :: s          => (splitDefault s).map fun p => (c :: p.1, p.2)
  | []              => none

/-- The reference between two braces.  A name is never empty: a text that begins with `:-` is a
name as a whole. -/
def ofBody (body : List Char) : Reference :=
  match splitDefault body with
  | some (c :: name, d) => ⟨c :: name, some d⟩
  | _                   => ⟨body, none⟩

end Reference

/-- The name of the variable that a part refers to. -/
def Segment.name? : Segment → Option String
  | .plain _     => none
  | .reference r => some (String.ofList r.name)

/-- What a part stands for, or the name of the variable that is missing. -/
def Segment.value (lookup : String → Option String) : Segment → Except String (List Char)
  | .plain s     => .ok s
  | .reference r =>
    match lookup (String.ofList r.name), r.default? with
    | some v, _    => .ok v.toList
    | none, some d => .ok d
    | none, none   => .error (String.ofList r.name)

namespace Template

/-! ### Spelling a text for the rules -/

/-- Every `$` twice. -/
def double (s : List Char) : List Char :=
  s.flatMap fun c => if c = '$' then ['$', '$'] else [c]

/-- One `$` less before each brace that two of them stand before. -/
def reopen : List Char → List Char
  | '$' :: '$' :: '{' :: s => '$' :: '{' :: reopen s
  | c :: s                 => c :: reopen s
  | []                     => []

/-- The text with every `$` doubled that opens no brace. -/
def braced (s : List Char) : List Char := reopen (double s)

/-! ### Reading by the rules -/

/-- A character of a name that stands without braces. -/
def isBare (c : Char) : Bool := Text.isLetterOrNumber c || c == '_'

/-- Where a reader stands: in plain text, behind a `$`, in a name without braces, or in a reference
between braces, with what it has read of them. -/
inductive Place where
  | outside
  | dollar
  | bare (name : List Char)
  | inside (body : List Char)

/-- Reads a text on from a place.  A reference is only entered where a closing brace follows. -/
def scan : Place → List Char → Template
  | .outside, '$' :: s      => scan .dollar s
  | .outside, c :: s        => .plain [c] :: scan .outside s
  | .outside, []            => []
  | .dollar, '$' :: s       => .plain ['$'] :: scan .outside s
  | .dollar, '{' :: s       =>
    if '}' ∈ s then scan (.inside []) s else .plain ['$', '{'] :: scan .outside s
  | .dollar, c :: s         =>
    if isBare c then scan (.bare [c]) s else .plain ['$', c] :: scan .outside s
  | .dollar, []             => [.plain ['$']]
  | .bare name, '$' :: s    => .reference ⟨name, none⟩ :: scan .dollar s
  | .bare name, c :: s      =>
    if isBare c then scan (.bare (name ++ [c])) s
    else .reference ⟨name, none⟩ :: .plain [c] :: scan .outside s
  | .bare name, []          => [.reference ⟨name, none⟩]
  | .inside body, '}' :: s  => .reference (.ofBody body) :: scan .outside s
  | .inside body, c :: s    => scan (.inside (body ++ [c])) s
  | .inside body, []        => [.plain ('$' :: '{' :: body)]

/-- The parts of a text. -/
def read (s : List Char) : Template :=
  scan .outside (braced s)

/-! ### Resolving -/

/-- The names of the variables that a template refers to. -/
def names (t : Template) : List String :=
  t.filterMap Segment.name?

/-- What a template stands for, or the name of the first variable that is missing. -/
def value (lookup : String → Option String) : Template → Except String (List Char)
  | []      => .ok []
  | p :: ps => do
    let v ← p.value lookup
    let vs ← value lookup ps
    .ok (v ++ vs)

theorem value_append (lookup : String → Option String) (ps qs : Template) :
    value lookup (ps ++ qs) = (do
      let v ← value lookup ps
      let w ← value lookup qs
      .ok (v ++ w)) := by
  induction ps with
  | nil => cases h : value lookup qs <;> simp [value, bind, Except.bind, h]
  | cons p ps ih =>
    rw [List.cons_append, value, value, ih]
    cases p.value lookup <;> cases value lookup ps <;> cases value lookup qs <;>
      simp [bind, Except.bind]

/-- The text with its references resolved, or the name of the first variable that is missing.  A
text in which no brace is opened is taken as it is. -/
def expand (lookup : String → Option String) (s : String) : Except String String :=
  if Config.occursIn ['$', '{'] s.toList then
    (value lookup (read s.toList)).map String.ofList
  else .ok s

end Template

end Sidebar
