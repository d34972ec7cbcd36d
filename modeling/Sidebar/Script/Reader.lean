import Sidebar.Value
import Sidebar.Script.Token

/-!
# Script — the reader of menu scripts

A menu script is an optional assignment `var name =`, a value, and an optional `;`, with gaps
between any two tokens.  A value is a string, a sequence in brackets or a record in braces; the
last item of either may be followed by a comma, and no two fields of a record have one key.

Reading recurses on the levels of nesting that are still allowed.  The items of one sequence or
record are counted by `size`, which exceeds the length of the text, so the count never runs out.
-/

namespace Sidebar.Script

open Sidebar.Text

/-! ### Sequences and records -/

/-- The items after `[`, up to and with `]`. -/
def items (item : Reader Value) : Nat → Reader (List Value)
  | 0, s     => .error ⟨.endOfInput, s⟩
  | n + 1, s => do
    let s ← gap s
    match s with
    | ']' :: s => .ok ([], s)
    | _ =>
      let (v, s) ← item s
      let s ← gap s
      match s with
      | ',' :: s => do
        let (vs, s) ← items item n s
        .ok (v :: vs, s)
      | ']' :: s => .ok ([v], s)
      | _        => .error ⟨.itemUnended, s⟩

/-- A key: a name or a string. -/
def key (size : Nat) : Reader String
  | []     => .error ⟨.endOfInput, []⟩
  | c :: s =>
    if isQuote c then quoted size c s
    else if isNameStart c then .ok (String.ofList (name (c :: s)).1, (name (c :: s)).2)
    else .error ⟨.keyMissing c, c :: s⟩

/-- The character `c`, or the fault that it is missing here. -/
def expect (c : Char) : List Char → Except Fault (List Char)
  | []     => .error ⟨.missing c, []⟩
  | d :: s => if d = c then .ok s else .error ⟨.missing c, d :: s⟩

/-- The fields after `{`, up to and with the closing brace; `seen` are the keys before them.  A
repeated key is reported where it stands, once its value has been read. -/
def fields (size : Nat) (item : Reader Value) :
    Nat → List String → Reader (List (String × Value))
  | 0, _, s        => .error ⟨.endOfInput, s⟩
  | n + 1, seen, s => do
    let s ← gap s
    match s with
    | '}' :: s => .ok ([], s)
    | _ =>
      let (k, r) ← key size s
      let r ← gap r
      let r ← expect ':' r
      let r ← gap r
      let (v, r) ← item r
      if k ∈ seen then .error ⟨.duplicateKey k, s⟩
      else
        let r ← gap r
        match r with
        | ',' :: r => do
          let (fs, r) ← fields size item n (k :: seen) r
          .ok ((k, v) :: fs, r)
        | '}' :: r => .ok ([(k, v)], r)
        | _        => .error ⟨.fieldUnended, r⟩

/-! ### Values -/

/-- A value with at most so many levels of nesting. -/
def value (size : Nat) : Nat → Reader Value
  | _, []              => .error ⟨.endOfInput, []⟩
  | 0, '{' :: s        => .error ⟨.tooDeep, '{' :: s⟩
  | 0, '[' :: s        => .error ⟨.tooDeep, '[' :: s⟩
  | levels + 1, '{' :: s => do
    let (fs, s) ← fields size (fun s => value size levels s) size [] s
    .ok (.record fs, s)
  | levels + 1, '[' :: s => do
    let (vs, s) ← items (fun s => value size levels s) size s
    .ok (.sequence vs, s)
  | _, c :: s =>
    if isQuote c then do
      let (t, s) ← quoted size c s
      .ok (.string t, s)
    else .error ⟨.unexpected c, c :: s⟩

/-! ### Documents -/

/-- The words that may stand before the name of an assignment. -/
def declarators : List (List Char) :=
  ["var".toList, "let".toList, "const".toList]

/-- The text after the `=` of an assignment, if there is one. -/
def assignment : List Char → Except Fault (List Char)
  | []     => .ok []
  | c :: s =>
    if isNameStart c then do
      let (first, s) := name (c :: s)
      let s ← if first ∈ declarators then do
          let s ← gap s
          match s with
          | d :: s' =>
            if isNameStart d then pure (name (d :: s')).2
            else throw ⟨.variableNameMissing, d :: s'⟩
          | [] => throw ⟨.variableNameMissing, []⟩
        else pure s
      let s ← gap s
      let s ← expect '=' s
      gap s
    else .ok (c :: s)

/-- Nothing but a gap, an optional `;` and a gap. -/
def ending (s : List Char) : Except Fault Unit := do
  let s ← gap s
  let s ← match s with
    | ';' :: s => gap s
    | s        => pure s
  match s with
  | []     => .ok ()
  | c :: s => .error ⟨.trailing c, c :: s⟩

/-- The value of a whole script. -/
def document (s : List Char) : Except Fault Value := do
  let size := s.length + 1
  let s ← gap s
  let s ← assignment s
  let (v, s) ← value size maxNesting s
  ending s
  .ok v

/-- The value of a menu script, a leading byte order mark aside. -/
def read (source : String) : Except (Located Cause) Value :=
  let s := dropMark source.toList
  (document s).mapError (Fault.locate s)

end Sidebar.Script
