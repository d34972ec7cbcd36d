import Sidebar.Proofs.Command.Failure
import Sidebar.Proofs.Tree.Export
import Sidebar.Proofs.Tree.Trail

/-!
# Command — answers

Once a command line has led to a tree, what it prints depends on the tree and the configuration
alone.  The commands that ask for an address mean the same node by it: the first one that has it,
which they list, list before all others that have it, lead to, or draw.

* `Command.answer?`: what a command prints.
* `Session.Outputs`: a session ends well and prints a text.
* `Invocation.Leads.report_gives`: the report of a command line is that of its answer.
* `Command.answers_agree`: commands that ask for one address agree on its node.
-/

namespace Sidebar

/-! ### Answers -/

/-- What a command prints of a tree; nothing if it asks for an address that no node has. -/
def Command.answer? (config : Config) (t : Tree) : Command → Option String
  | .render _ url => (config.render t url).toOption
  | .find url all =>
    match t.lookUp url all with
    | []    => none
    | found => some (t.table found)
  | .breadcrumbs url separator => (t.labelTrail? separator url).map (· ++ "\n")
  | .check shared => some (t.summary shared)
  | .document layout => some (t.toOutline.toJson layout ++ "\n")

/-- The line about a node. -/
def Cell.line (c : Cell) : String := s!"{c.depth}\t{c.text}\t{c.url}\n"

/-- A report gives an answer if that is the whole output of a run that went well.  Where there is
none, the run failed for the address that was asked for. -/
def Report.Gives (r : Report) (command : Command) : Option String → Prop
  | some text => r.code = 0 ∧ r.output = text
  | none      => ∃ url, command.url? = some url ∧ r.Failed (.unknownUrl url)

variable {config : Config} {t : Tree} {command : Command} {url : String}

/-- A command has no answer exactly when it asks for an address that no node has. -/
theorem Command.answer?_eq_none_iff :
    command.answer? config t = none ↔ ∃ url, command.url? = some url ∧ t.find? url = none := by
  cases command with
  | render settings url =>
      cases url with
      | none => simp [answer?, Config.render, Command.url?, Except.toOption]
      | some url =>
          cases h : t.find? url with
          | none => simp [answer?, Config.render, Command.url?, Except.toOption, h]
          | some n => simp [answer?, Config.render, Command.url?, Except.toOption, h]
  | find url all =>
      rw [answer?, Command.url?]
      have lookUp : t.lookUp url all = [] ↔ t.find? url = none := Tree.lookUp_eq_nil_iff
      cases h : t.lookUp url all with
      | nil => exact ⟨fun _ => ⟨url, rfl, lookUp.mp h⟩, fun _ => rfl⟩
      | cons n ns =>
          rw [h] at lookUp
          simpa using lookUp
  | breadcrumbs url separator => simp [answer?, Command.url?, Tree.labelTrail?_eq_none_iff]
  | check shared => simp [answer?, Command.url?]
  | document layout => simp [answer?, Command.url?]

/-! ### Sessions -/

namespace Session

variable {α β : Type} {x : Session Id α} {f : α → Session Id β} {a : α} {b : β}
  {text text' : String}

/-- A session ends well with a result, and what it prints is a text. -/
def Outputs (x : Session Id α) (a : α) (text : String) : Prop :=
  ∃ more, x.Yields (.ok a) more ∧ String.join (more.filterMap Write.output?) = text

theorem Outputs.bind (hx : x.Outputs a text) (hf : (f a).Outputs b text') :
    (x >>= f).Outputs b (text ++ text') := by
  obtain ⟨more, yields, rfl⟩ := hx
  obtain ⟨rest, yields', rfl⟩ := hf
  refine ⟨_, yields.bind yields', ?_⟩
  rw [List.filterMap_append, String.join_append]

theorem outputs_print (text : String) : (print text : Session Id Unit).Outputs () text :=
  ⟨_, yields_write _, by simp [Write.output?, String.join]⟩

theorem outputs_say (tone : Tone) (text : String) :
    (say tone text : Session Id Unit).Outputs () "" :=
  ⟨_, yields_write _, rfl⟩

/-- A session that writes messages only, and does not fail, prints nothing. -/
theorem Quiet.outputs {P : α → Prop} {E : Failure → Prop} (hx : x.Quiet P E) (sure : ∀ e, ¬ E e) :
    ∃ a, P a ∧ x.Outputs a "" := by
  cases hx with
  | ok yields mute ha => exact ⟨_, ha, _, yields, by rw [mute.filterMap_output?]; rfl⟩
  | error yields mute he => exact absurd he (sure _)

/-- Behind a session that prints nothing, another prints what it prints. -/
theorem Outputs.quiet_bind (hx : x.Outputs a "") (hf : (f a).Outputs b text) :
    (x >>= f).Outputs b text := by
  have both := hx.bind hf
  rwa [String.empty_append] at both

theorem Outputs.report {x : Session Id Unit} (hx : x.Outputs () text) :
    x.report.run.code = 0 ∧ x.report.run.output = text := by
  obtain ⟨more, yields, output⟩ := hx
  have done : x.report.run = .done more := by
    rw [Session.report, Id.run_bind, yields []]
    rfl
  rw [done]
  exact ⟨rfl, output⟩

end Session

/-! ### Command lines -/

namespace Invocation

open Session

variable {host : Host Id} {i : Invocation} {text : String}

theorem Leads.loadConfig_outputs (h : i.Leads host config t) (sure : ∀ f, ¬ i.Fails host f) :
    (i.loadConfig host).Outputs config "" := by
  obtain ⟨c, hc, outputs⟩ := quiet_loadConfig.outputs sure
  obtain rfl := Except.ok.inj (hc.symm.trans h.configures)
  exact outputs

theorem Leads.loadTree_outputs (h : i.Leads host config t) (sure : ∀ f, ¬ i.Fails host f) :
    (i.loadTree host config).Outputs t "" := by
  obtain ⟨u, ⟨-, source, hs, hu⟩, outputs⟩ := (quiet_loadTree h.configures).outputs sure
  obtain ⟨source', hs', ht⟩ := h.tree
  obtain rfl := Except.ok.inj (hs.symm.trans hs')
  obtain rfl := Except.ok.inj (hu.symm.trans ht)
  exact outputs

/-- A command line that leads to a tree prints the answer of its command. -/
theorem Leads.execute_outputs (h : i.Leads host config t)
    (answer : i.command.answer? config t = some text) : (i.execute host).Outputs () text := by
  have sure : ∀ f, ¬ i.Fails host f := fun f hf => by
    have none : i.command.answer? config t = none := Command.answer?_eq_none_iff.mpr
      ((h.fails_iff.mp hf).imp fun _ ⟨hu, missing, _⟩ => ⟨hu, missing⟩)
    exact nomatch none.symm.trans answer
  have loaded := h.loadConfig_outputs sure
  have tree := h.loadTree_outputs sure
  unfold execute
  cases hi : i.command with
  | render settings url =>
      rw [hi, Command.answer?] at answer
      refine loaded.quiet_bind (tree.quiet_bind ?_)
      cases hr : config.render t url with
      | error f => exact nomatch hr ▸ answer
      | ok drawn =>
          obtain rfl : drawn = text := by rw [hr] at answer; exact Option.some.inj answer
          have lifted : (liftExcept (.ok drawn : Except Failure String) : Session Id _).Outputs
              drawn "" :=
            ⟨[], yields_pure drawn, rfl⟩
          exact lifted.quiet_bind (outputs_print drawn)
  | find url all =>
      rw [hi, Command.answer?] at answer
      refine loaded.quiet_bind (tree.quiet_bind ?_)
      cases hn : t.lookUp url all with
      | nil => exact nomatch hn ▸ answer
      | cons n ns =>
          rw [hn] at answer
          obtain rfl := Option.some.inj answer
          exact outputs_print _
  | breadcrumbs url separator =>
      rw [hi, Command.answer?] at answer
      refine loaded.quiet_bind (tree.quiet_bind ?_)
      obtain ⟨trail, ht, rfl⟩ := Option.map_eq_some_iff.mp answer
      rw [ht]
      exact outputs_print _
  | check shared =>
      rw [hi, Command.answer?] at answer
      obtain rfl := Option.some.inj answer
      refine loaded.quiet_bind ((outputs_say _ _).quiet_bind (tree.quiet_bind ?_))
      have both := (outputs_print (t.summary shared)).bind
        (f := fun _ => say .success "Navigation tree is valid") (outputs_say _ _)
      rwa [String.append_empty] at both
  | document layout =>
      rw [hi, Command.answer?] at answer
      obtain rfl := Option.some.inj answer
      refine loaded.quiet_bind (tree.quiet_bind ((outputs_print _).bind ?_))
      have both := (outputs_print "\n").bind
        (f := fun _ => say .plain s!"Exported {t.size} nodes") (outputs_say _ _)
      rwa [String.append_empty] at both

/-- The report of a command line that leads to a tree is that of its answer. -/
theorem Leads.report_gives (h : i.Leads host config t) :
    ((i.execute host).report.run).Gives i.command (i.command.answer? config t) := by
  cases answer : i.command.answer? config t with
  | some text => exact (h.execute_outputs answer).report
  | none =>
      obtain ⟨url, hu, missing⟩ := Command.answer?_eq_none_iff.mp answer
      have fails : i.Fails host (.unknownUrl url) := h.fails_iff.mpr ⟨url, hu, missing, rfl⟩
      rcases (careful_execute host i).report with ⟨-, sure⟩ | ⟨f, hf, failed⟩
      · exact absurd fails (sure _)
      · exact ⟨url, hu, hf.eq fails ▸ failed⟩

end Invocation

/-! ### One address -/

namespace Tree

variable {ns : List Nat} {cs : List Cell} {n : Nat} {c : Cell}

/-- Nodes of a tree have cells, one each. -/
theorem exists_cells (h : ∀ n ∈ ns, ∃ c, t.cell? n = some c) :
    ∃ cs : List Cell, ns.map t.cell? = cs.map some := by
  induction ns with
  | nil => exact ⟨[], rfl⟩
  | cons n ns ih =>
      obtain ⟨⟨c, hc⟩, behind⟩ := List.forall_mem_cons.mp h
      obtain ⟨cs, hcs⟩ := ih behind
      exact ⟨c :: cs, by rw [List.map_cons, hc, hcs, List.map_cons]⟩

theorem filterMap_cell? (h : ns.map t.cell? = cs.map some) : ns.filterMap t.cell? = cs := by
  have cells := congrArg (List.filterMap id) h
  rwa [List.filterMap_map, List.filterMap_map, Function.id_comp, Function.id_comp,
    List.filterMap_some] at cells

theorem table_eq (h : ns.map t.cell? = cs.map some) :
    t.table ns = String.join (cs.map Cell.line) := by
  rw [table, filterMap_cell? h]
  rfl

end Tree

namespace Renderer

variable {r : Renderer} {n : Nat} {c : Cell} {b : Bool}

/-- The top level is drawn if any level is. -/
theorem hides_zero (shown : r.maxDepth ≠ some 0) : r.hides 0 = false := by
  unfold hides
  cases h : r.maxDepth with
  | none => rfl
  | some levels =>
      have drawn : levels ≠ 0 := fun e => shown (by rw [h, e])
      simpa using drawn

theorem entry?_self (hc : t.cell? n = some c) (shown : r.maxDepth ≠ some 0) :
    r.entry? t c.depth b n =
      some ⟨c.text, Link.resolve r.linkBase c.url, 0, c.isLeaf || r.endsAt 0, b⟩ := by
  simp [hc, entry?, hides_zero shown]

/-- Unless nothing is drawn at all, a drawing of a node begins with its entry. -/
theorem head?_entries (hc : t.cell? n = some c) (lt : n < c.stop) (shown : r.maxDepth ≠ some 0) :
    (r.entries t n).head? = r.entry? t c.depth true n := by
  have count : c.stop - n = c.stop - n - 1 + 1 := (Nat.sub_add_cancel (Nat.sub_pos_of_lt lt)).symm
  have first := entry?_self (b := true) hc shown
  rw [entries, subtreeEntries, hc]
  simp only [Cursor.rest, Cursor.remaining]
  rw [count, List.range'_succ, List.filterMap_cons, first, List.head?_cons]

end Renderer

namespace Command

/-- What the commands that ask for an address print where a node is the first that has it.  The
first line of a listing is about that node, and so is the only one where the others are not wanted;
the trail leads down to it; and it comes first in a drawing. -/
structure Meet (t : Tree) (url : String) (n : Nat) (c : Cell) : Prop where
  first : ∀ config, answer? config t (.find url false) = some c.line
  all : ∃ ns, ∃ cs : List Cell, t.Lists (·.url = url) (n :: ns) ∧ ns.map t.cell? = cs.map some ∧
    ∀ config, answer? config t (.find url true) = some (c.line ++ String.join (cs.map Cell.line))
  trail : ∃ path, ∃ cs : List Cell, t.PathTo n path ∧ path.map t.cell? = cs.map some ∧
    ∀ config separator, answer? config t (.breadcrumbs url separator) =
      some (String.intercalate separator (cs.map (·.text)) ++ "\n")
  drawing : ∀ config settings, answer? config t (.render settings (some url)) =
    some (config.style.draw config.indent (config.renderer.entries t n))
  drawn : ∀ r : Renderer, r.maxDepth ≠ some 0 →
    (r.entries t n).head? = r.entry? t c.depth true n ∧ r.entry? t c.depth true n =
      some ⟨c.text, Link.resolve r.linkBase c.url, 0, c.isLeaf || r.endsAt 0, true⟩

variable {o : Outline} {n : Nat} {c : Cell}

theorem answer?_find (found : t.find? url = some n) (hc : t.cell? n = some c) :
    answer? config t (.find url false) = some c.line := by
  have one : [n].map t.cell? = [c].map some := by rw [List.map_singleton, hc]; rfl
  have line : String.join [c.line] = c.line := by
    rw [String.join_cons, String.join_nil, String.append_empty]
  simp only [answer?, Tree.lookUp, found, if_neg Bool.false_ne_true, Option.toList_some]
  rw [Tree.table_eq one, List.map_singleton, line]

theorem exists_answer?_findAll (found : (Tree.layOut o).find? url = some n)
    (hc : (Tree.layOut o).cell? n = some c) :
    ∃ ns, ∃ cs : List Cell, (Tree.layOut o).Lists (·.url = url) (n :: ns) ∧
      ns.map (Tree.layOut o).cell? = cs.map some ∧ ∀ config,
        answer? config (Tree.layOut o) (.find url true) =
          some (c.line ++ String.join (cs.map Cell.line)) := by
  have listed := Tree.lists_findAll o url
  obtain ⟨ns, hns⟩ := List.head?_eq_some_iff.mp ((Tree.find?_eq_head? _ url).symm.trans found)
  rw [hns] at listed
  have behind : ∀ m ∈ ns, ∃ d, (Tree.layOut o).cell? m = some d := fun m hm =>
    ((listed.mem m).mp (List.mem_cons_of_mem n hm)).imp fun _ => And.left
  obtain ⟨cs, hcs⟩ := Tree.exists_cells behind
  have cells : (n :: ns).map (Tree.layOut o).cell? = (c :: cs).map some := by
    rw [List.map_cons, hc, hcs, List.map_cons]
  refine ⟨ns, cs, listed, hcs, fun config => ?_⟩
  simp only [answer?, Tree.lookUp, if_true, hns]
  rw [Tree.table_eq cells, List.map_cons, String.join_cons]

theorem exists_answer?_breadcrumbs (found : (Tree.layOut o).find? url = some n)
    (hn : n < (Tree.layOut o).size) :
    ∃ path, ∃ cs : List Cell, (Tree.layOut o).PathTo n path ∧
      path.map (Tree.layOut o).cell? = cs.map some ∧ ∀ config separator,
        answer? config (Tree.layOut o) (.breadcrumbs url separator) =
          some (String.intercalate separator (cs.map (·.text)) ++ "\n") := by
  have way : (Tree.layOut o).trail url = ((Tree.layOut o).ancestors n).reverse := by
    rw [Tree.trail, found]
  have nodes : ∀ m ∈ ((Tree.layOut o).ancestors n).reverse ++ [n], m < (Tree.layOut o).size := by
    have climbed := (Tree.climbs_ancestors hn).lt_size
    intro m hm
    rw [← List.reverse_cons, List.mem_reverse] at hm
    exact climbed m hm
  obtain ⟨cs, hcs⟩ := Tree.exists_cells fun m hm => Tree.cell?_eq_some_iff_lt.mpr (nodes m hm)
  refine ⟨_, cs, Tree.pathTo_ancestors hn, hcs, fun config separator => ?_⟩
  rw [answer?, Tree.labelTrail?, found, way, Option.map_some, Tree.filterMap_cell? hcs]
  rfl

theorem meet_of_first (h : (Tree.layOut o).First url n) (hc : (Tree.layOut o).cell? n = some c) :
    Meet (Tree.layOut o) url n c := by
  have found : (Tree.layOut o).find? url = some n := Tree.find?_eq_some_iff.mpr h
  have size : n < (Tree.layOut o).size := Tree.cell?_eq_some_iff_lt.mp ⟨c, hc⟩
  have stop : n < c.stop := ((Tree.coherent_layOut o).stop n c hc).1
  refine ⟨fun config => answer?_find found hc, exists_answer?_findAll found hc,
    exists_answer?_breadcrumbs found size, fun config settings => ?_, fun r shown => ?_⟩
  · rw [answer?, Config.render, found]
    exact congrArg some (config.renderer.draw_eq config.style _ n)
  · exact ⟨Renderer.head?_entries hc stop shown, Renderer.entry?_self hc shown⟩

/-- The commands that ask for an address find nothing exactly where no node has it.  Otherwise they
all mean the first node that has it, whatever the configuration.  What a command line reports that
leads to a tree is the answer of its command. -/
theorem answers_agree {o : Outline} {t : Tree} (h : Tree.ofOutline o = .ok t) (url : String) :
    (∀ command config, command.url? = some url →
      (answer? config t command = none ↔ ∀ n c, t.cell? n = some c → c.url ≠ url)) ∧
    ((∃ n c, t.cell? n = some c ∧ c.url = url) →
      ∃ n c, t.First url n ∧ t.cell? n = some c ∧ Meet t url n c) ∧
    ∀ (host : Host Id) (i : Invocation) (config : Config), i.Leads host config t →
      ((i.execute host).report.run).Gives i.command (answer? config t i.command) := by
  obtain rfl := Tree.ofOutline_eq_ok h
  refine ⟨fun command config asks => ?_, fun ⟨n, c, hc, e⟩ => ?_, fun _ _ _ => (·.report_gives)⟩
  · rw [answer?_eq_none_iff, ← Tree.find?_eq_none_iff]
    refine ⟨fun ⟨u, hu, missing⟩ => ?_, fun missing => ⟨url, asks, missing⟩⟩
    obtain rfl := Option.some.inj (asks.symm.trans hu)
    exact missing
  · cases found : (Tree.layOut o).find? url with
    | none => exact absurd e (Tree.find?_eq_none_iff.mp found n c hc)
    | some m =>
        have first := Tree.find?_eq_some_iff.mp found
        obtain ⟨d, hd, -⟩ := first.1
        exact ⟨m, d, first, hd, meet_of_first first hd⟩

/-- A place where every file is the same. -/
def stocked (text : String) : Host Id where
  directory := "/"
  hasEntry _ := false
  readFile _ := .ok text
  environment _ := none

/-- A command line that asks for all nodes with an address. -/
def seeking : Invocation := ⟨none, some "m.json", none, false, .find "p#" true⟩

/-- Of three nodes with one address the first is above the second; no node has the other address. -/
theorem answers_agree_alike :
    Tree.ofOutline Tree.alike = .ok (Tree.layOut Tree.alike) ∧
      (∃ c, (Tree.layOut Tree.alike).First "p#" 0 ∧ Meet (Tree.layOut Tree.alike) "p#" 0 c) ∧
      (∀ config, answer? config (Tree.layOut Tree.alike) (.breadcrumbs "q" ">") = none) ∧
      ((seeking.execute (stocked (Tree.alike.toJson .compact))).report.run).Gives seeking.command
        (some "0\tA\tp#\n2\tC\tp#\n0\tE\tp#\n") := by
  have top : (Tree.layOut Tree.alike).cell? 0 = some ⟨"A", "p#", 0, none, 3, [1]⟩ := rfl
  have missing : ∀ c ∈ (Tree.layOut Tree.alike).cells.toList, c.url ≠ "q" := by decide +kernel
  have read : Tree.ofSource .auto (Tree.alike.toJson .compact) = .ok (Tree.layOut Tree.alike) :=
    Tree.ofSource_eq_ok.mpr
      ⟨_, Outline.parse_toJson (by decide) .compact .auto, Tree.ofOutline_alike⟩
  have leads : seeking.Leads (stocked (Tree.alike.toJson .compact))
      { Config.standard "/" with sourcePath := "m.json" } (Tree.layOut Tree.alike) :=
    ⟨rfl, _, rfl, read⟩
  obtain ⟨-, agree, gives⟩ := answers_agree Tree.ofOutline_alike "p#"
  obtain ⟨n, c, first, -, meet⟩ := agree ⟨0, _, top, rfl⟩
  obtain rfl : n = 0 := by
    rcases Nat.eq_zero_or_pos n with zero | before
    · exact zero
    · exact absurd rfl (first.2 0 _ before top)
  refine ⟨Tree.ofOutline_alike, ⟨c, first, meet⟩, fun config => ?_, ?_⟩
  · refine ((answers_agree Tree.ofOutline_alike "q").1 _ config rfl).mpr fun m d hd => missing d ?_
    exact List.mem_of_getElem? ((Array.getElem?_toList ..).trans hd)
  · have answer : answer? { Config.standard "/" with sourcePath := "m.json" }
        (Tree.layOut Tree.alike) seeking.command =
          some "0\tA\tp#\n2\tC\tp#\n0\tE\tp#\n" := by
      decide +kernel
    exact answer ▸ gives _ _ _ leads

end Command

end Sidebar
