/-!
# Value — what a menu source denotes

Both source languages denote a `Value`: a scalar, a sequence, or a record of named fields in the
order of the text.  `Value.kind` names the six shapes for messages.
-/

namespace Sidebar

/-- A decimal number `± coefficient · 10 ^ exponent`. -/
structure Decimal where
  negative : Bool
  coefficient : Nat
  exponent : Int
deriving DecidableEq, Repr

/-- The value of a menu source. -/
inductive Value where
  | null
  | boolean (b : Bool)
  | number (n : Decimal)
  | string (s : String)
  | sequence (items : List Value)
  | record (fields : List (String × Value))
deriving Inhabited

namespace Value

/-- The shape of a value. -/
inductive Kind where
  | null | boolean | number | string | sequence | record
deriving DecidableEq, Repr

/-- The word for a shape. -/
def Kind.name : Kind → String
  | .null     => "null"
  | .boolean  => "boolean"
  | .number   => "number"
  | .string   => "string"
  | .sequence => "sequence"
  | .record   => "record"

/-- The shape of `v`. -/
def kind : Value → Kind
  | .null       => .null
  | .boolean _  => .boolean
  | .number _   => .number
  | .string _   => .string
  | .sequence _ => .sequence
  | .record _   => .record

end Value

end Sidebar
