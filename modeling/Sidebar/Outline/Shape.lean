import Sidebar.Outline.Basic

/-!
# Outline — the shape of a menu value

A value is an outline when it is a sequence of item records, or a record whose only possible key
is `children` with such a sequence.  An item record has a string under `text`, a string under
`url`, possibly a sequence of item records under `children`, and no other key.

Items are checked in reading order, and the record of an item before its children.  Within a
record an unknown key comes first, the least one if there are several, then `text`, `url` and
`children`.
-/

namespace Sidebar

namespace Shape

/-- The value under a key. -/
def lookup? (key : String) (fields : List (String × Value)) : Option Value :=
  (fields.find? (·.1 == key)).map (·.2)

/-- The least of some texts, in the order of code points. -/
def least? : List String → Option String
  | []      => none
  | k :: ks =>
    match least? ks with
    | none   => some k
    | some m => some (if k < m then k else m)

/-- The least key that is not among the known ones. -/
def unknownKey? (known : List String) (fields : List (String × Value)) : Option String :=
  least? ((fields.map (·.1)).filter fun k => !known.contains k)

/-- The keys of an item record. -/
def itemKeys : List String := ["text", "url", "children"]

/-- The string under a key of the item at `path`. -/
def stringField (path : Path) (fields : List (String × Value)) (key : String) :
    Except Misfit String :=
  match lookup? key fields with
  | some (.string s) => .ok s
  | some v           => .error ⟨path, .notAString key v.kind⟩
  | none             => .error ⟨path, .missingKey key⟩

mutual

/-- The item that a value describes at `path`. -/
def item (path : Path) : Value → Except Misfit Item
  | .record fields =>
    match unknownKey? itemKeys fields with
    | some key => .error ⟨path, .unknownKey key⟩
    | none => do
      let text ← stringField path fields "text"
      let url ← stringField path fields "url"
      let children ← childrenField path fields
      .ok ⟨text, url, children⟩
  | v => .error ⟨path, .notARecord v.kind⟩

/-- The items under the key `children` of the record at `path`; none if the key is absent. -/
def childrenField (path : Path) : List (String × Value) → Except Misfit (List Item)
  | []           => .ok []
  | (k, v) :: fs => if k = "children" then children path v else childrenField path fs

/-- The items of a value that should be a sequence of them. -/
def children (path : Path) : Value → Except Misfit (List Item)
  | .sequence vs => itemsFrom path 0 vs
  | v            => .error ⟨path, .childrenNotASequence v.kind⟩

/-- The children of `path` from the `i`-th on. -/
def itemsFrom (path : Path) (i : Nat) : List Value → Except Misfit (List Item)
  | []      => .ok []
  | v :: vs => do
    let x ← item (path ++ [i]) v
    let xs ← itemsFrom path (i + 1) vs
    .ok (x :: xs)

end

end Shape

/-- The outline that a value describes. -/
def Outline.ofValue : Value → Except Misfit Outline
  | .record fields =>
    match Shape.unknownKey? ["children"] fields with
    | some key => .error ⟨[], .unknownKey key⟩
    | none     => (Shape.childrenField [] fields).map Outline.mk
  | .sequence vs => (Shape.itemsFrom [] 0 vs).map Outline.mk
  | v            => .error ⟨[], .notARecord v.kind⟩

end Sidebar
