import Sidebar.Config.Basic
import Sidebar.Toml.Document

/-!
# Config — what a configuration file says

A draft is the content of a configuration file before its references are resolved.  A file has two
sections, `source` and `render`; keys that mean nothing are passed over, and what is not given has
its standard value.  A section may be written as a table or as an array of its values in order,
and a name of a format or a style as a string or as the only key of an empty table or array.
-/

namespace Sidebar

/-- What a configuration file says. -/
structure Draft where
  sourcePath : Option String
  format : Option Format
  style : Style
  indent : Nat
  maxDepth : Option Nat
  linkBase : Option String
deriving DecidableEq, Repr

namespace Draft

/-- The draft of an empty file. -/
def empty : Draft := ⟨none, none, .tree, defaultIndent, none, none⟩

/-! ### Values -/

/-- The text of a string. -/
def string? : Toml.Value → Option String
  | .string s => some s
  | _         => none

/-- A count. -/
def count? : Toml.Value → Option Nat
  | .integer (.ofNat n) => if n < Config.countBound then some n else none
  | _                   => none

/-- A name out of a few. -/
def name? {α : Type} (ofName? : String → Option α) : Toml.Value → Option α
  | .string s                    => ofName? s
  | .table _ [(s, .table _ [])]  => ofName? s
  | .table _ [(s, .array [])]    => ofName? s
  | _                            => none

mutual

/-- A value that may be passed over: every number in it denotes one, and no integer needs more than
128 bits. -/
def isPassable : Toml.Value → Bool
  | .integer (.ofNat n)   => decide (n < Nat.pow 2 128)
  | .integer (.negSucc n) => decide (n < Nat.pow 2 127)
  | .unreadable           => false
  | .array items          => arePassable items
  | .rows items           => arePassable items
  | .table _ fields       => haveOnlyPassable fields
  | _                     => true

/-- Values that may be passed over. -/
def arePassable : List Toml.Value → Bool
  | []      => true
  | v :: vs => isPassable v && arePassable vs

/-- Fields that may be passed over. -/
def haveOnlyPassable : List (String × Toml.Value) → Bool
  | []           => true
  | (_, v) :: fs => isPassable v && haveOnlyPassable fs

end

/-! ### Sections -/

/-- Changes a draft by the value of a key. -/
abbrev Setter : Type := Toml.Value → Draft → Option Draft

/-- The keys of a section in order, each with what its value changes. -/
abbrev Section : Type := List (String × Setter)

/-- The setter of a key; an unknown key changes nothing. -/
def Section.setter (known : Section) (key : String) : Setter :=
  match known.find? (·.1 == key) with
  | some f => f.2
  | none   => fun v d => if isPassable v then some d else none

/-- Changes a draft by the fields of a table. -/
def Section.ofFields (known : Section) : List (String × Toml.Value) → Draft → Option Draft
  | [], d           => some d
  | (k, v) :: fs, d => do
    let d ← known.setter k v d
    known.ofFields fs d

/-- Changes a draft by values in the order of the keys. -/
def Section.ofItems : Section → List Toml.Value → Draft → Option Draft
  | f :: known, v :: vs, d => do
    let d ← f.2 v d
    ofItems known vs d
  | _, _, d => some d

/-- Changes a draft by a whole section.  A moment counts as a table without fields. -/
def Section.ofValue (known : Section) : Setter
  | .table _ fields, d => known.ofFields fields d
  | .array items, d    => known.ofItems items d
  | .rows items, d     => known.ofItems items d
  | .moment, d         => some d
  | _, _               => none

/-- The section about the menu file. -/
def sourceSection : Section := [
  ("path", fun v d => (string? v).map fun s => { d with sourcePath := some s }),
  ("format", fun v d => (name? Format.ofName? v).map fun f => { d with format := some f })]

/-- The section about the drawing. -/
def renderSection : Section := [
  ("style", fun v d => (name? Style.ofName? v).map fun s => { d with style := s }),
  ("indent", fun v d => (count? v).map fun n => { d with indent := n }),
  ("max_depth", fun v d => (count? v).map fun n => { d with maxDepth := some n }),
  ("link_prefix", fun v d => (string? v).map fun s => { d with linkBase := some s })]

/-- The sections of a file. -/
def sections : Section := [
  ("source", sourceSection.ofValue),
  ("render", renderSection.ofValue)]

/-- What the text of a configuration file says, if it is well formed. -/
def read (text : String) : Option Draft := do
  let v ← Toml.read text
  sections.ofValue v empty

end Draft

end Sidebar
