import Sidebar.Json.Number
import Sidebar.Json.Token

/-!
# Json — the reader of documents

A document is one value between blanks.  No two fields of a record have one key.

Reading recurses on the levels of nesting that are still allowed.  The items of one sequence or
record are counted by `size`, which exceeds the length of the text, so the count never runs out.

* `parse_dropMark`: a leading byte order mark is dropped before the document is read.
-/

namespace Sidebar.Json

open Sidebar.Text

/-- The deepest nesting of sequences and records. -/
def maxNesting : Nat := 127

/-! ### Sequences and records -/

/-- The items after one item, up to and with `]`. -/
def moreItems (item : Reader Value) : Nat → Reader (List Value)
  | 0, s     => stopAt .endInList s
  | n + 1, s =>
    match skipSpace s with
    | ']' :: s => .ok ([], s)
    | ',' :: s =>
      match skipSpace s with
      | ']' :: s => stopBehind 1 .trailingComma (']' :: s)
      | s => do
        let (v, s) ← item s
        let (vs, s) ← moreItems item n s
        .ok (v :: vs, s)
    | s => stopBefore .endInList .itemUnended s

/-- The items after `[`, up to and with `]`. -/
def items (size : Nat) (item : Reader Value) : Reader (List Value) := fun s =>
  match skipSpace s with
  | []       => stopAt .endInList []
  | ']' :: s => .ok ([], s)
  | s => do
    let (v, s) ← item s
    let (vs, s) ← moreItems item size s
    .ok (v :: vs, s)

/-- The fault that a key has come before, `s` being the text after it.  Its place is behind the
blanks that follow, and behind a closing brace after those. -/
def repeated {α : Type} (key : String) (s : List Char) : Except Fault α :=
  match skipSpace s with
  | '}' :: s => stopAt (.duplicateKey key) s
  | s        => stopAt (.duplicateKey key) s

/-- The text after a colon. -/
def colon (s : List Char) : Except Fault (List Char) :=
  match skipSpace s with
  | ':' :: s => .ok s
  | s        => stopBefore .endInObject .colonMissing s

/-- One field after the quote of its key. -/
def field (size : Nat) (item : Reader Value) (seen : List String) : Reader (String × Value) :=
  fun s => do
    let (key, s) ← quoted size s
    if key ∈ seen then repeated key s
    else
      let s ← colon s
      let (v, s) ← item s
      .ok ((key, v), s)

/-- The fields after one field, up to and with the closing brace; `seen` are the keys so far. -/
def moreFields (size : Nat) (item : Reader Value) :
    Nat → List String → Reader (List (String × Value))
  | 0, _, s        => stopAt .endInObject s
  | n + 1, seen, s =>
    match skipSpace s with
    | '}' :: s => .ok ([], s)
    | ',' :: s =>
      match skipSpace s with
      | '"' :: s => do
        let (f, s) ← field size item seen s
        let (fs, s) ← moreFields size item n (f.1 :: seen) s
        .ok (f :: fs, s)
      | '}' :: s => stopBehind 1 .trailingComma ('}' :: s)
      | s        => stopBefore .endInValue .keyMissing s
    | s => stopBefore .endInObject .fieldUnended s

/-- The fields after an opening brace, up to and with the closing one. -/
def fields (size : Nat) (item : Reader Value) : Reader (List (String × Value)) := fun s =>
  match skipSpace s with
  | '}' :: s => .ok ([], s)
  | '"' :: s => do
    let (f, s) ← field size item [] s
    let (fs, s) ← moreFields size item size [f.1] s
    .ok (f :: fs, s)
  | s => stopBefore .endInObject .keyMissing s

/-! ### Values -/

/-- A value that is neither a sequence nor a record. -/
def scalar (size : Nat) : Reader Value
  | 'n' :: s => do let s ← word "ull".toList s; .ok (.null, s)
  | 't' :: s => do let s ← word "rue".toList s; .ok (.boolean true, s)
  | 'f' :: s => do let s ← word "alse".toList s; .ok (.boolean false, s)
  | '"' :: s => do let (t, s) ← quoted size s; .ok (.string t, s)
  | '-' :: s => do let (n, s) ← number true s; .ok (.number n, s)
  | c :: s   =>
    if c.isDigit then do let (n, s) ← number false (c :: s); .ok (.number n, s)
    else stopBehind 1 .valueMissing (c :: s)
  | []       => stopAt .endInValue []

/-- A value with at most so many levels of nesting. -/
def value (size : Nat) : Nat → Reader Value
  | 0, s =>
    match skipSpace s with
    | '[' :: s => stopBehind 1 .tooDeep ('[' :: s)
    | '{' :: s => stopBehind 1 .tooDeep ('{' :: s)
    | s        => scalar size s
  | levels + 1, s =>
    match skipSpace s with
    | '[' :: s => do
      let (vs, s) ← items size (fun s => value size levels s) s
      .ok (.sequence vs, s)
    | '{' :: s => do
      let (fs, s) ← fields size (fun s => value size levels s) s
      .ok (.record fs, s)
    | s => scalar size s

/-! ### Documents -/

/-- The value of a whole document. -/
def document (s : List Char) : Except Fault Value := do
  let (v, s) ← value (s.length + 1) maxNesting s
  match skipSpace s with
  | []     => .ok v
  | c :: s => stopBehind 1 .trailing (c :: s)

/-- The value of a JSON document, or what is told of the first fault. -/
def parse (source : String) : Except (Located String) Value :=
  let s := source.toList
  (document s).mapError fun f => told (f.locate s)

/-- The value of a JSON document, a leading byte order mark aside. -/
def read (source : String) : Except (Located Cause) Value :=
  let s := dropMark source.toList
  (document s).mapError (Fault.locate s)

theorem parse_dropMark (source : String) :
    parse (String.ofList (dropMark source.toList)) = (read source).mapError told := by
  rw [parse, read, String.toList_ofList]
  cases document (dropMark source.toList) <;> rfl

end Sidebar.Json
