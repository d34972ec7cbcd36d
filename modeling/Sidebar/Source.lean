import Sidebar.Outline.Shape
import Sidebar.Json.Reader
import Sidebar.Script.Reader

/-!
# Source — menus from text

A source is a JSON document or a menu script.  `Format.detect` tells them apart by the first
character that is not blank: a brace or a bracket begins a JSON document.  `Outline.parse` reads
a source in a given format; the format `auto` is resolved by the text.
-/

namespace Sidebar

open Sidebar.Text

/-- The language of a source. -/
inductive Format where
  | auto
  | json
  | script
deriving DecidableEq, Repr

namespace Format

/-- The name of a format. -/
def name : Format → String
  | .auto   => "auto"
  | .json   => "json"
  | .script => "menudata"

/-- The format of a name. -/
def ofName? (s : String) : Option Format :=
  if s = "auto" then some .auto
  else if s = "json" then some .json
  else if s = "menudata" then some .script
  else none

@[simp] theorem ofName?_name (f : Format) : ofName? f.name = some f := by
  cases f <;> decide

/-- The message for a name that no format has. -/
def unknownName (s : String) : String :=
  s!"unknown source format `{s}` (expected auto, json or menudata)"

/-- The format that the text shows; never `auto`. -/
def detectIn (s : List Char) : Format :=
  match (dropMark s).dropWhile isBlank with
  | '{' :: _ => .json
  | '[' :: _ => .json
  | _        => .script

/-- The format that a source shows; never `auto`. -/
def detect (source : String) : Format :=
  detectIn source.toList

theorem detectIn_ne_auto (s : List Char) : detectIn s ≠ .auto := by
  unfold detectIn; split <;> simp

/-- A format other than `auto`: the given one, or else the one the source shows. -/
def resolve (f : Format) (source : String) : Format :=
  match f with
  | .auto => detect source
  | f     => f

theorem resolve_ne_auto (f : Format) (source : String) : f.resolve source ≠ .auto := by
  cases f <;> simp [resolve, detect, detectIn_ne_auto]

end Format

/-- Why a source has no menu. -/
inductive LoadFault where
  | json (fault : Located Json.Cause)
  | script (fault : Located Script.Cause)
  | misfit (misfit : Misfit)
deriving DecidableEq, Repr

/-- The wording of a fault. -/
def LoadFault.message : LoadFault → String
  | .json f   => (Json.told f).describe id
  | .script f => f.describe Script.Cause.message
  | .misfit m => m.message

namespace Outline

/-- The outline of a JSON document. -/
def ofJson (source : String) : Except LoadFault Outline := do
  let v ← (Json.read source).mapError .json
  (ofValue v).mapError .misfit

/-- The outline of a menu script. -/
def ofScript (source : String) : Except LoadFault Outline := do
  let v ← (Script.read source).mapError .script
  (ofValue v).mapError .misfit

/-- The outline of a source.  The byte order mark is dropped before the format is resolved; each
reader drops one of its own. -/
def parse (format : Format) (source : String) : Except LoadFault Outline :=
  let s := String.ofList (dropMark source.toList)
  match format.resolve s with
  | .json => ofJson s
  | _     => ofScript s

end Outline

end Sidebar
