import Sidebar.Proofs.Text.ByteOrder
import Sidebar.Proofs.Text.Step
import Sidebar.Proofs.Tree.Coherent

/-!
# Tree — looking up addresses

The index of a tree holds the nodes of each address, and what it answers is what going through all
the nodes gives: each node once, in reading order, and no address that no node has.

* `Tree.Lists`: some nodes are those with a property, in reading order.
* `Cell.getD_index`: what the index holds under an address.
* `Tree.find?_eq_some_iff`: the node that is found is the first with its address.
* `Tree.index_agrees`: every look-up agrees with going through the tree.
-/

namespace Sidebar

open Text

/-! ### The index -/

namespace Cell

/-- The nodes with an address among some cells, of which the first is that of `start`. -/
def nodesAt (url : String) (start : Nat) (cs : List Cell) : List Nat :=
  ((cs.zipIdx start).filter (·.1.url == url)).map (·.2)

variable {url : String}

theorem nodesAt_cons_self {c : Cell} (h : c.url = url) (start : Nat) (cs : List Cell) :
    nodesAt url start (c :: cs) = start :: nodesAt url (start + 1) cs := by
  have here : ((c, start).1.url == url) = true := beq_iff_eq.mpr h
  rw [nodesAt, List.zipIdx_cons, List.filter_cons, if_pos here, List.map_cons, nodesAt]

theorem nodesAt_cons_of_ne {c : Cell} (h : c.url ≠ url) (start : Nat) (cs : List Cell) :
    nodesAt url start (c :: cs) = nodesAt url (start + 1) cs := by
  have elsewhere : ¬ ((c, start).1.url == url) = true := mt beq_iff_eq.mp h
  rw [nodesAt, List.zipIdx_cons, List.filter_cons, if_neg elsewhere, nodesAt]

/-- Under an address the index holds the nodes it held before, and behind them those of the cells,
if there are any. -/
theorem index_getElem? (byUrl : Std.TreeMap String (List Nat)) (url : String) (start : Nat)
    (cs : List Cell) : (index byUrl start cs)[url]? =
      if nodesAt url start cs = [] then byUrl[url]?
      else some (byUrl[url]?.getD [] ++ nodesAt url start cs) := by
  induction cs generalizing byUrl start with
  | nil => rfl
  | cons c cs ih =>
      rw [index, ih, Tree.enter, Std.TreeMap.getElem?_alter]
      by_cases h : c.url = url
      · -- the node stands behind those before it and in front of those that follow
        rw [h, if_pos Std.ReflCmp.compare_self, nodesAt_cons_self h]
        split <;> simp_all
      · rw [if_neg (mt Std.LawfulEqCmp.eq_of_compare h), nodesAt_cons_of_ne h]

theorem index_empty_getElem? (url : String) (start : Nat) (cs : List Cell) :
    (index ∅ start cs)[url]? =
      if nodesAt url start cs = [] then none else some (nodesAt url start cs) := by
  rw [index_getElem?, Std.TreeMap.getElem?_emptyc, Option.getD_none, List.nil_append]

theorem getD_index (url : String) (start : Nat) (cs : List Cell) :
    (index ∅ start cs)[url]?.getD [] = nodesAt url start cs := by
  rw [index_empty_getElem?]
  split
  · exact Eq.symm ‹_›
  · rfl

theorem index_eq_some_iff {start : Nat} {cs : List Cell} {ns : List Nat} :
    (index ∅ start cs)[url]? = some ns ↔ ns ≠ [] ∧ nodesAt url start cs = ns := by
  rw [index_empty_getElem?]
  split
  · rename_i empty
    refine ⟨nofun, ?_⟩
    rintro ⟨found, rfl⟩
    exact absurd empty found
  · rename_i found
    rw [Option.some.injEq]
    exact ⟨fun e => ⟨e ▸ found, e⟩, And.right⟩

theorem length_nodesAt (url : String) (start : Nat) (cs : List Cell) :
    (nodesAt url start cs).length = cs.countP (·.url == url) := by
  have cells := List.countP_map (p := (·.url == url)) (f := Prod.fst) (l := cs.zipIdx start)
  rw [List.zipIdx_map_fst] at cells
  rw [nodesAt, List.length_map, cells, List.countP_eq_length_filter]
  rfl

end Cell

/-! ### Pages -/

/-- A page is an address up to its first `#`, or the whole of one that has none. -/
def IsPage (url page : String) : Prop :=
  '#' ∉ page.toList ∧ (url = page ∨ ∃ fragment, url.toList = page.toList ++ '#' :: fragment)

theorem Cell.page_eq_iff {c : Cell} {page : String} : c.page = page ↔ IsPage c.url page := by
  constructor
  · rintro rfl
    rw [IsPage, Cell.page, String.toList_ofList]
    refine ⟨fun h => ?_, ?_⟩
    · have all := List.all_takeWhile (p := (· != '#')) (l := c.url.toList)
      exact absurd (List.all_eq_true.mp all '#' h) (by decide)
    have split := List.takeWhile_append_dropWhile (p := (· != '#')) (l := c.url.toList)
    cases h : c.url.toList.dropWhile (· != '#') with
    | nil =>
        rw [h, List.append_nil] at split
        exact .inl (by rw [split, String.ofList_toList])
    | cons d fragment =>
        have sign : d = '#' := by simpa using not_of_mem_head?_dropWhile (Option.mem_def.mpr
          (congrArg List.head? h))
        rw [h, sign] at split
        exact .inr ⟨fragment, split.symm⟩
  · rintro ⟨bare, h⟩
    have plain : ∀ d ∈ page.toList, (d != '#') = true := fun d hd =>
      bne_iff_ne.mpr fun sign => bare (sign ▸ hd)
    obtain ⟨fragment, text, sign⟩ : ∃ r, c.url.toList = page.toList ++ r ∧
        ∀ d ∈ r.head?, ¬ (d != '#') = true := by
      rcases h with e | ⟨fragment, e⟩
      · exact ⟨[], by rw [e, List.append_nil], nofun⟩
      · exact ⟨_, e, fun d hd => by simpa using Option.some.inj hd.symm⟩
    rw [Cell.page, text, takeWhile_append_eq plain sign, String.ofList_toList]

namespace Tree

/-! ### Nodes with a property -/

/-- Some nodes are those whose cells have a property: all of them, each as often and where it comes
among the nodes of the tree. -/
structure Lists (t : Tree) (P : Cell → Prop) (ns : List Nat) : Prop where
  order : ns.Sublist t.traverse.rest
  mem : ∀ n, n ∈ ns ↔ ∃ c, t.cell? n = some c ∧ P c

/-- The node is the first one with an address. -/
def First (t : Tree) (url : String) (n : Nat) : Prop :=
  (∃ c, t.cell? n = some c ∧ c.url = url) ∧
    ∀ m d, m < n → t.cell? m = some d → d.url ≠ url

variable {t : Tree} {P : Cell → Prop} {ns : List Nat} {url : String} {n : Nat} {o : Outline}

theorem Lists.pairwise (h : t.Lists P ns) : ns.Pairwise (· < ·) :=
  (List.pairwise_lt_range' (s := t.traverse.next) (n := t.traverse.remaining)).sublist h.order

theorem Lists.eq_nil_iff (h : t.Lists P ns) : ns = [] ↔ ∀ n c, t.cell? n = some c → ¬ P c := by
  rw [List.eq_nil_iff_forall_not_mem]
  refine forall_congr' fun n => ?_
  rw [h.mem n]
  exact ⟨fun none c hc hP => none ⟨c, hc, hP⟩, fun none ⟨c, hc, hP⟩ => none c hc hP⟩

/-- The first of the listed nodes is the first with the address. -/
theorem Lists.head?_eq_some_iff (h : t.Lists (·.url = url) ns) :
    ns.head? = some n ↔ t.First url n := by
  constructor
  · intro first
    obtain ⟨ms, rfl⟩ := List.head?_eq_some_iff.mp first
    refine ⟨(h.mem n).mp List.mem_cons_self, fun m d lt hd e => ?_⟩
    rcases List.mem_cons.mp ((h.mem m).mpr ⟨d, hd, e⟩) with rfl | hm
    · exact Nat.lt_irrefl _ lt
    · exact Nat.lt_asymm lt (List.rel_of_pairwise_cons h.pairwise hm)
  · rintro ⟨node, before⟩
    have hn := (h.mem n).mpr node
    cases ns with
    | nil => exact absurd hn List.not_mem_nil
    | cons m ms =>
        obtain ⟨d, hd, e⟩ := (h.mem m).mp List.mem_cons_self
        rcases List.mem_cons.mp hn with rfl | hn
        · rfl
        · exact absurd e (before m d (List.rel_of_pairwise_cons h.pairwise hn) hd)

/-! ### Looking up -/

/-- The first node with an address is the first of all of them. -/
theorem find?_eq_head? (t : Tree) (url : String) : t.find? url = (t.findAll url).head? := by
  rw [find?, findAll]
  cases t.byUrl[url]? <;> rfl

theorem findAll_layOut (o : Outline) (url : String) :
    (layOut o).findAll url = Cell.nodesAt url 0 (layOut o).cells.toList :=
  Cell.getD_index url 0 _

theorem lists_findAll (o : Outline) (url : String) :
    (layOut o).Lists (·.url = url) ((layOut o).findAll url) := by
  rw [findAll_layOut]
  refine ⟨?_, fun n => ?_⟩
  · have nodes := (List.filter_sublist (p := (·.1.url == url))
      (l := (layOut o).cells.toList.zipIdx)).map Prod.snd
    rw [List.zipIdx_map_snd, Array.length_toList] at nodes
    exact nodes
  · simp only [Cell.nodesAt, List.mem_map, List.mem_filter, List.mem_zipIdx_iff_getElem?,
      Array.getElem?_toList, beq_iff_eq, Prod.exists]
    constructor
    · rintro ⟨c, m, ⟨hc, e⟩, rfl⟩
      exact ⟨c, hc, e⟩
    · rintro ⟨c, hc, e⟩
      exact ⟨c, n, ⟨hc, e⟩, rfl⟩

theorem find?_eq_some_iff : (layOut o).find? url = some n ↔ (layOut o).First url n := by
  rw [find?_eq_head?]
  exact (lists_findAll o url).head?_eq_some_iff

theorem find?_eq_none_iff :
    (layOut o).find? url = none ↔ ∀ n c, (layOut o).cell? n = some c → c.url ≠ url := by
  rw [find?_eq_head?, List.head?_eq_none_iff]
  exact (lists_findAll o url).eq_nil_iff

/-- Going through the nodes and asking of each gives those with a property. -/
theorem lists_filter (t : Tree) (p : Cell → Bool) :
    t.Lists (p · = true) (t.traverse.rest.filter fun n => (t.cell? n).any p) := by
  refine ⟨List.filter_sublist, fun n => ?_⟩
  rw [List.mem_filter, Option.any_eq_true]
  refine ⟨And.right, fun ⟨c, hc, hp⟩ => ⟨?_, c, hc, hp⟩⟩
  have lt := cell?_eq_some_iff_lt.mp ⟨c, hc⟩
  exact List.mem_range'_1.mpr ⟨Nat.zero_le n, by simpa [traverse, Cursor.remaining] using lt⟩

theorem lists_findPage (t : Tree) (page : String) :
    t.Lists (fun c => IsPage c.url page) (t.findPage page) := by
  have scan := lists_filter t fun c => c.page == page
  simp only [beq_iff_eq, Cell.page_eq_iff] at scan
  exact scan

/-! ### Shared addresses -/

theorem pairwise_shared (t : Tree) : t.shared.Pairwise fun e e' => utf8 e.1 < utf8 e'.1 := by
  rw [shared, List.pairwise_map]
  refine (Std.TreeMap.ordered_keys_toList.sublist List.filter_sublist).imp fun {e e'} lt => ?_
  exact utf8_lt_iff.mpr (compareOfLessAndEq_eq_lt.mp lt)

theorem mem_shared_iff {k : Nat} : (url, k) ∈ (layOut o).shared ↔
    2 ≤ k ∧ ((layOut o).cells.toList.countP fun c => c.url == url) = k := by
  have index : (layOut o).byUrl = Cell.index ∅ 0 (layOut o).cells.toList := rfl
  simp only [shared, index, List.mem_map, List.mem_filter, Prod.exists,
    Std.TreeMap.mem_toList_iff_getElem?_eq_some, Cell.index_eq_some_iff, decide_eq_true_eq,
    Prod.mk.injEq, ← Cell.length_nodesAt url 0]
  constructor
  · rintro ⟨url, ns, ⟨⟨-, rfl⟩, several⟩, rfl, rfl⟩
    exact ⟨several, rfl⟩
  · rintro ⟨several, rfl⟩
    have found := List.ne_nil_of_length_pos (Nat.lt_of_succ_lt several)
    exact ⟨url, _, ⟨⟨found, rfl⟩, several⟩, rfl, rfl⟩

/-- What the index of a tree answers is what going through its nodes gives.  Under an address it
finds all the nodes that have it, and the first of them alone; the nodes of a page are those with
its address up to the first `#`; and the shared addresses, in the order of their bytes, are those of
two nodes or more, with the number of them. -/
theorem index_agrees {o : Outline} {t : Tree} (h : ofOutline o = .ok t) :
    (∀ url, t.Lists (·.url = url) (t.findAll url) ∧ t.find? url = (t.findAll url).head?) ∧
      (∀ page, t.Lists (fun c => IsPage c.url page) (t.findPage page)) ∧
      (t.shared.Pairwise fun e e' => utf8 e.1 < utf8 e'.1) ∧
      ∀ url k, (url, k) ∈ t.shared ↔
        2 ≤ k ∧ (t.cells.toList.countP fun c => c.url == url) = k := by
  obtain rfl := ofOutline_eq_ok h
  exact ⟨fun url => ⟨lists_findAll o url, find?_eq_head? _ url⟩, lists_findPage _,
    pairwise_shared _, fun _ _ => mem_shared_iff⟩

/-- An address of three nodes, one below another, and two addresses of one page. -/
def alike : Outline :=
  ⟨[⟨"A", "p#", [⟨"B", "", [⟨"C", "p#", []⟩]⟩]⟩, ⟨"D", "p", []⟩, ⟨"E", "p#", []⟩]⟩

theorem ofOutline_alike : ofOutline alike = .ok (layOut alike) :=
  rfl

theorem index_agrees_alike :
    ofOutline alike = .ok (layOut alike) ∧
      (layOut alike).Lists (·.url = "p#") [0, 2, 4] ∧
      (layOut alike).find? "p#" = some 0 ∧
      (layOut alike).Lists (fun c => IsPage c.url "p") [0, 2, 3, 4] ∧
      (("p#", 3) ∈ (layOut alike).shared ∧ ("p", 1) ∉ (layOut alike).shared) := by
  obtain ⟨addresses, pages, -, shared⟩ := index_agrees ofOutline_alike
  have all : (layOut alike).findAll "p#" = [0, 2, 4] := by decide +kernel
  have page : (layOut alike).findPage "p" = [0, 2, 3, 4] := by decide +kernel
  refine ⟨ofOutline_alike, all ▸ (addresses "p#").1, ?_, page ▸ pages "p", ?_, fun h => ?_⟩
  · rw [(addresses "p#").2, all, List.head?_cons]
  · exact (shared "p#" 3).mpr ⟨by decide, by decide +kernel⟩
  · exact absurd ((shared "p" 1).mp h).1 (by decide)

end Tree

end Sidebar
