import Std.Data.String.ToNat
import Sidebar.Proofs.Command.Answer
import Sidebar.Proofs.Render.Line
import Sidebar.Proofs.Text.Split

/-!
# Command — the table of the nodes with an address

The nodes with an address are printed as a table: a line break ends what is written about a node,
and tabs stand between its depth, its label and its address.  Labels and addresses are written as
they are, with the tabs and the line breaks they have.  So the table has a line of three fields
about each node exactly where there are none, and then it is read back; otherwise different nodes
may have the same table.

* `records`: the lines of a text, and their fields.
* `Cell.records_body_iff`: when one line of three fields is written about a node.
* `Tree.tabled_lookUp`: the table of the nodes with an address.
-/

namespace Sidebar

/-! ### Reading a table -/

/-- The fields of a line, which tabs separate. -/
def fieldsOf (line : List Char) : List String := (line.splitOn '\t').map String.ofList

/-- The lines of a text, cut into their fields.  Line breaks end them: what is behind the last one
is not a line. -/
def records (text : String) : List (List String) :=
  (text.toList.splitOn '\n').dropLast.map fieldsOf

/-- What three fields tell: a label, an address and a depth. -/
def rowOf? : List String → Option (String × String × Nat)
  | [depth, text, url] => depth.toNat?.map fun d => (text, url, d)
  | _                  => none

theorem records_empty : records "" = [] := rfl

theorem records_append (s t : String) :
    records (s ++ "\n" ++ t) = (s.toList.splitOn '\n').map fieldsOf ++ records t := by
  have text : (s ++ "\n" ++ t).toList = s.toList ++ '\n' :: t.toList := by
    rw [String.toList_append, String.toList_append, List.append_assoc]
    rfl
  rw [records, text, List.splitOn_append_cons_self,
    List.dropLast_append_of_ne_nil (List.splitOn_ne_nil '\n' t.toList), List.map_append, records]

theorem length_le_flatMap {α β : Type} {f : α → List β} (h : ∀ a, f a ≠ []) (l : List α) :
    l.length ≤ (l.flatMap f).length := by
  induction l with
  | nil => exact Nat.le_refl 0
  | cons a l ih =>
      have some : 0 < (f a).length := List.length_pos_iff.mpr (h a)
      rw [List.flatMap_cons, List.length_append, List.length_cons]
      omega

/-- Rows of at least one part each are one part each if there are no more parts than rows. -/
theorem flatMap_eq_map_iff {α β : Type} {f : α → List β} {g : α → β} (h : ∀ a, f a ≠ [])
    (l : List α) : l.flatMap f = l.map g ↔ ∀ a ∈ l, f a = [g a] := by
  induction l with
  | nil => simp
  | cons a l ih =>
      rw [List.flatMap_cons, List.map_cons, List.forall_mem_cons, ← ih]
      constructor
      · intro e
        have most : (f a ++ l.flatMap f).length = l.length + 1 := by
          rw [e, List.length_cons, List.length_map]
        have least := length_le_flatMap h l
        obtain ⟨b, bs, hb⟩ := List.exists_cons_of_ne_nil (h a)
        rw [hb, List.length_append, List.length_cons] at most
        have none : bs = [] := List.eq_nil_of_length_eq_zero (by omega)
        rw [hb, none, List.singleton_append] at e
        obtain ⟨here, behind⟩ := List.cons.inj e
        exact ⟨by rw [hb, none, here], behind⟩
      · rintro ⟨one, rest⟩
        rw [one, rest, List.singleton_append]

/-! ### The line about a node -/

namespace Cell

/-- What is written about a node, up to the line break at the end. -/
def body (c : Cell) : String := s!"{c.depth}\t{c.text}\t{c.url}"

/-- The depth in decimal, the label and the address. -/
def fields (c : Cell) : List String := [toString c.depth, c.text, c.url]

/-- Neither the label nor the address has a tab or a line break. -/
structure Tabular (c : Cell) : Prop where
  tabs : '\t' ∉ c.text.toList ∧ '\t' ∉ c.url.toList
  breaks : '\n' ∉ c.text.toList ∧ '\n' ∉ c.url.toList

/-- The line breaks in the label and the address. -/
def breaks (c : Cell) : Nat := Sidebar.breaks c.text + Sidebar.breaks c.url

instance (c : Cell) : Decidable c.Tabular :=
  decidable_of_iff (('\t' ∉ c.text.toList ∧ '\t' ∉ c.url.toList) ∧
      ('\n' ∉ c.text.toList ∧ '\n' ∉ c.url.toList))
    ⟨fun ⟨tabs, breaks⟩ => ⟨tabs, breaks⟩, fun ⟨tabs, breaks⟩ => ⟨tabs, breaks⟩⟩

theorem line_eq (c : Cell) : c.line = c.body ++ "\n" := rfl

theorem toList_body (c : Cell) : c.body.toList =
    (toString c.depth).toList ++ '\t' :: (c.text.toList ++ '\t' :: c.url.toList) := by
  have text : c.body = toString c.depth ++ "\t" ++ c.text ++ "\t" ++ c.url := rfl
  simp only [text, String.toList_append, List.append_assoc]
  rfl

theorem count_body (a : Char) (ha : a.isDigit = false) (c : Cell) : c.body.toList.count a =
    ['\t', '\t'].count a + (c.text.toList.count a + c.url.toList.count a) := by
  have digits := List.count_eq_zero.mpr (Text.notMem_repr ha c.depth)
  rw [toList_body, List.count_append, digits, List.count_cons, List.count_append,
    List.count_cons, List.count_cons, List.count_cons, List.count_nil]
  omega

/-- One line of three fields is written about a node exactly if its label and its address have no
tab and no line break. -/
theorem records_body_iff (c : Cell) :
    (c.body.toList.splitOn '\n').map fieldsOf = [c.fields] ↔ c.Tabular := by
  have breaks := count_body '\n' (by decide) c
  have tabs := count_body '\t' (by decide) c
  constructor
  · intro h
    obtain ⟨line, one, three⟩ := List.map_eq_singleton_iff.mp h
    have lines := congrArg List.length one
    rw [Text.length_splitOn, List.length_singleton, breaks] at lines
    -- the only line is all that is written
    have none : '\n' ∉ c.body.toList := List.count_eq_zero.mp (by omega)
    rw [List.splitOn_eq_singleton none] at one
    obtain rfl := List.singleton_inj.mp one
    have parts := congrArg List.length three
    rw [fieldsOf, List.length_map, Text.length_splitOn, tabs] at parts
    have two : ['\t', '\t'].count '\t' = 2 ∧ c.fields.length = 3 := ⟨rfl, rfl⟩
    refine ⟨⟨?_, ?_⟩, ⟨?_, ?_⟩⟩ <;> refine List.count_eq_zero.mp ?_ <;> omega
  · rintro ⟨⟨tabText, tabUrl⟩, ⟨breakText, breakUrl⟩⟩
    have none : '\n' ∉ c.body.toList := by
      rw [← List.count_eq_zero, breaks, List.count_eq_zero.mpr breakText,
        List.count_eq_zero.mpr breakUrl]
      rfl
    rw [List.splitOn_eq_singleton none, List.map_singleton, fieldsOf, toList_body,
      List.splitOn_append_cons_self_of_not_mem (Text.notMem_repr (by decide) c.depth),
      List.splitOn_append_cons_self_of_not_mem tabText, List.splitOn_eq_singleton tabUrl]
    simp only [List.map_cons, List.map_nil, String.ofList_toList, fields]

theorem rowOf?_fields (c : Cell) : rowOf? c.fields = some c.row := by
  rw [fields, rowOf?, show toString c.depth = c.depth.repr from rfl, Nat.toNat?_repr]
  rfl

/-! ### The lines about some nodes -/

theorem closes_line (c : Cell) : Closes c.breaks c.line :=
  ⟨c.body.toList, by rw [line_eq, String.toList_append]; rfl,
    (count_body '\n' (by decide) c).trans (Nat.zero_add _)⟩

theorem exists_lines_join (cs : List Cell) : ∃ ls, Lines (String.join (cs.map line)) ls ∧
    ls.length = cs.length + (cs.map breaks).sum := by
  have closes : List.Forall₂ Closes (cs.map breaks) (cs.map line) := by
    rw [List.forall₂_map_left_iff, List.forall₂_map_right_iff, List.forall₂_same]
    exact fun c _ => c.closes_line
  obtain ⟨ls, hl, count⟩ := exists_lines_of_closes closes
  rw [List.length_map] at count
  exact ⟨ls, hl, count⟩

theorem records_join (cs : List Cell) : records (String.join (cs.map line)) =
    cs.flatMap fun c => (c.body.toList.splitOn '\n').map fieldsOf := by
  induction cs with
  | nil => exact records_empty
  | cons c cs ih =>
      rw [List.map_cons, String.join_cons, line_eq, records_append, ih, List.flatMap_cons]

theorem records_join_iff (cs : List Cell) :
    records (String.join (cs.map line)) = cs.map fields ↔ ∀ c ∈ cs, c.Tabular := by
  have some (c : Cell) : (c.body.toList.splitOn '\n').map fieldsOf ≠ [] :=
    mt List.map_eq_nil_iff.mp (List.splitOn_ne_nil '\n' c.body.toList)
  rw [records_join, flatMap_eq_map_iff some]
  exact forall₂_congr fun c _ => c.records_body_iff

end Cell

/-! ### Tables -/

/-- A text is a table of some nodes.  It has a line for each of them, and one more for each line
break in a label or an address.  They are lines of three fields, the depth, the label and the
address of each node, exactly if no label and no address has a tab or a line break; and then the
nodes are read back. -/
structure Tabled (cs : List Cell) (text : String) : Prop where
  lines : ∃ ls, Lines text ls ∧ ls.length = cs.length + (cs.map Cell.breaks).sum
  fields : records text = cs.map Cell.fields ↔ ∀ c ∈ cs, c.Tabular
  rows : (∀ c ∈ cs, c.Tabular) → (records text).mapM rowOf? = some (cs.map Cell.row)

theorem tabled_join (cs : List Cell) : Tabled cs (String.join (cs.map Cell.line)) where
  lines := Cell.exists_lines_join cs
  fields := Cell.records_join_iff cs
  rows tabular := by
    have each : rowOf? ∘ Cell.fields = fun c => pure c.row := funext Cell.rowOf?_fields
    rw [(Cell.records_join_iff cs).mpr tabular, List.mapM_map, each, List.mapM_pure]
    rfl

namespace Tree

/-- The first node with an address is one of them. -/
theorem mem_findAll_of_mem_lookUp {t : Tree} {url : String} {all : Bool} {n : Nat}
    (h : n ∈ t.lookUp url all) : n ∈ t.findAll url := by
  cases all with
  | true => exact h
  | false =>
      have first : t.find? url = some n := Option.mem_toList.mp h
      rw [find?_eq_head?] at first
      exact List.mem_of_mem_head? first

/-- What is printed of the first node with an address, or of all of them, is a table of these
nodes. -/
theorem tabled_lookUp {o : Outline} {t : Tree} (h : ofOutline o = .ok t) (url : String)
    (all : Bool) : ∃ cs : List Cell, (t.lookUp url all).map t.cell? = cs.map some ∧
      (∀ c ∈ cs, c.url = url) ∧ Tabled cs (t.table (t.lookUp url all)) := by
  obtain rfl := ofOutline_eq_ok h
  have nodes : ∀ n ∈ (layOut o).lookUp url all, ∃ c, (layOut o).cell? n = some c ∧ c.url = url :=
    fun n hn => ((lists_findAll o url).mem n).mp (mem_findAll_of_mem_lookUp hn)
  obtain ⟨cs, hcs⟩ := exists_cells fun n hn => (nodes n hn).imp fun _ => And.left
  refine ⟨cs, hcs, fun c hc => ?_, table_eq hcs ▸ tabled_join cs⟩
  have found : some c ∈ ((layOut o).lookUp url all).map (layOut o).cell? :=
    hcs ▸ List.mem_map_of_mem hc
  obtain ⟨n, hn, e⟩ := List.mem_map.mp found
  obtain ⟨d, hd, address⟩ := nodes n hn
  obtain rfl := Option.some.inj (e.symm.trans hd)
  exact address

/-- The nodes with one address, at several depths, are read back from their table. -/
theorem tabled_lookUp_alike : ofOutline alike = .ok (layOut alike) ∧
    (records ((layOut alike).table ((layOut alike).lookUp "p#" true))).mapM rowOf? =
      some [("A", "p#", 0), ("C", "p#", 2), ("E", "p#", 0)] := by
  obtain ⟨cs, cells, -, table⟩ := tabled_lookUp ofOutline_alike "p#" true
  have found : ((layOut alike).lookUp "p#" true).filterMap (layOut alike).cell? =
      [⟨"A", "p#", 0, none, 3, [1]⟩, ⟨"C", "p#", 2, some 1, 3, []⟩,
        ⟨"E", "p#", 0, none, 5, []⟩] := by
    decide +kernel
  obtain rfl := (filterMap_cell? cells).symm.trans found
  exact ⟨ofOutline_alike, table.rows (by decide)⟩

/-- A label that reads like the end of one line and the beginning of another. -/
def folded : Outline := ⟨[⟨"A\tp#\n0\tB", "p#", []⟩]⟩

/-- Two items with one address. -/
def twins : Outline := ⟨[⟨"A", "p#", []⟩, ⟨"B", "p#", []⟩]⟩

/-- The table of one node has two lines of three fields; it is also the table of two other nodes. -/
theorem table_folded :
    ofOutline folded = .ok (layOut folded) ∧ ofOutline twins = .ok (layOut twins) ∧
      ((layOut folded).lookUp "p#" true).length = 1 ∧
      ((layOut twins).lookUp "p#" true).length = 2 ∧
      (layOut folded).table ((layOut folded).lookUp "p#" true) =
        (layOut twins).table ((layOut twins).lookUp "p#" true) ∧
      ¬ ∃ cs : List Cell,
        ((layOut folded).lookUp "p#" true).map (layOut folded).cell? = cs.map some ∧
          records ((layOut folded).table ((layOut folded).lookUp "p#" true)) =
            cs.map Cell.fields := by
  have one : ((layOut folded).lookUp "p#" true).length = 1 := by decide +kernel
  have two : (records ((layOut folded).table ((layOut folded).lookUp "p#" true))).length = 2 := by
    decide +kernel
  refine ⟨rfl, rfl, one, by decide +kernel, by decide +kernel, ?_⟩
  rintro ⟨cs, cells, read⟩
  have most := congrArg List.length cells
  rw [List.length_map, List.length_map, one] at most
  rw [read, List.length_map, ← most] at two
  exact absurd two (by decide)

end Tree

end Sidebar
