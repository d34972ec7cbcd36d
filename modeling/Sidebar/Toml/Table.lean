/-!
# Toml — values and tables

A document denotes a table.  A table remembers how it came to be, because that decides what may
still be added to it: a table with a header of its own, one that a longer header runs through, one
that a dotted key runs through, and one written inline.  Of floats and of dates and times only the
kind is kept.

* `lookup?_put`: a field that has been set is found.
-/

namespace Sidebar.Toml

/-- How a table came to be. -/
inductive Origin where
  | header
  | implied
  | dotted
  | inline
deriving DecidableEq, Repr

/-- The value of a key.  A number whose spelling denotes none is kept as `unreadable`.  An array of
tables, whose rows have headers of their own, is told apart from an array that is written out. -/
inductive Value where
  | string (s : String)
  | integer (n : Int)
  | float
  | unreadable
  | boolean (b : Bool)
  | moment
  | array (items : List Value)
  | rows (items : List Value)
  | table (origin : Origin) (fields : List (String × Value))

/-! ### Fields -/

/-- The value of a key. -/
def lookup? (key : String) : List (String × Value) → Option Value
  | []           => none
  | (k, v) :: fs => if k = key then some v else lookup? key fs

/-- Sets the value of a key, in its place or else at the end. -/
def put (key : String) (v : Value) : List (String × Value) → List (String × Value)
  | []           => [(key, v)]
  | (k, w) :: fs => if k = key then (k, v) :: fs else (k, w) :: put key v fs

@[simp] theorem lookup?_put (key : String) (v : Value) (fs : List (String × Value)) :
    lookup? key (put key v fs) = some v := by
  induction fs with
  | nil => simp [put, lookup?]
  | cons f fs ih =>
    obtain ⟨k, w⟩ := f
    by_cases h : k = key <;> simp [put, lookup?, h, ih]

namespace Value

/-- An empty table. -/
def empty (origin : Origin) : Value := .table origin []

/-- What becomes of a table of some origin when a path runs through it, if the path may.  A dotted
key makes a table its own that only longer headers have run through. -/
def passed? (written : Origin) : Origin → Option Origin
  | .inline  => none
  | .header  => if written = .dotted then none else some .header
  | .implied => some written
  | .dotted  => some .dotted

/-- Changes the table at a path.  Missing tables on the way are added with the origin `written`;
a path runs through the last row of an array of tables. -/
def update (written : Origin) (change : Value → Option Value) :
    List String → Value → Option Value
  | [], v => change v
  | k :: path, .table origin fields =>
    match lookup? k fields with
    | none => do
      let v ← update written change path (empty written)
      some (.table origin (put k v fields))
    | some (.table o fs) => do
      let o ← passed? written o
      let v ← update written change path (.table o fs)
      some (.table origin (put k v fields))
    | some (.rows items) =>
      match items.getLast? with
      | none => none
      | some row => do
        let v ← update written change path row
        some (.table origin (put k (.rows (items.dropLast ++ [v])) fields))
    | some _ => none
  | _ :: _, _ => none

/-! ### Additions -/

/-- Adds a field with a new key.  A field with a dotted key goes into a table that dotted keys
run through, any other field into a table that they do not run through. -/
def addField (isDotted : Bool) (key : String) (v : Value) : Value → Option Value
  | .table origin fields =>
    if (origin == .dotted) == isDotted && (lookup? key fields).isNone then
      some (.table origin (put key v fields))
    else none
  | _ => none

/-- Gives a table its header: a new one, or one that other headers run through. -/
def addHeader (key : String) : Value → Option Value
  | .table origin fields =>
    match lookup? key fields with
    | none                      => some (.table origin (put key (empty .header) fields))
    | some (.table .implied fs) => some (.table origin (put key (.table .header fs) fields))
    | some _                    => none
  | _ => none

/-- Adds a row to an array of tables, or begins one. -/
def addRow (key : String) : Value → Option Value
  | .table origin fields =>
    match lookup? key fields with
    | none               => some (.table origin (put key (.rows [empty .header]) fields))
    | some (.rows items) =>
      some (.table origin (put key (.rows (items ++ [empty .header])) fields))
    | some _             => none
  | _ => none

/-- Adds a field under a key, dotted if `path` is not empty. -/
def addAt (table : Value) (path : List String) (key : String) (v : Value) : Option Value :=
  table.update .dotted (addField (!path.isEmpty) key v) path

end Value

end Sidebar.Toml
