import Sidebar.Proofs.Command.Session
import Sidebar.Proofs.Text.Step
import Sidebar.Proofs.Tree.Address

/-!
# Command — failures

A command line fails because its configuration cannot be loaded, because its source cannot be read
or has no tree, or because no node has the address it asks for.  All this is settled before the
first piece of output is written; what comes earlier are messages.

* `Invocation.Fails`: the failures of a command line.
* `Invocation.careful_execute`: all commands are careful.
* `Program.run_careful`: a run ends well and nothing fails, or its last word is the failure and it
  has no output.
-/

namespace Sidebar

/-! ### Failures -/

/-- The address that a command asks for. -/
def Command.url? : Command → Option String
  | .render _ url      => url
  | .find url _        => some url
  | .breadcrumbs url _ => some url
  | .check _           => none
  | .document _        => none

namespace Tree

theorem lookUp_eq_nil_iff {t : Tree} {url : String} {all : Bool} :
    t.lookUp url all = [] ↔ t.find? url = none := by
  cases all with
  | true => rw [find?_eq_head?, List.head?_eq_none_iff, lookUp, if_pos rfl]
  | false => rw [lookUp, if_neg Bool.false_ne_true, Option.toList_eq_nil_iff]

theorem labelTrail?_eq_none_iff {t : Tree} {separator url : String} :
    t.labelTrail? separator url = none ↔ t.find? url = none :=
  Option.map_eq_none_iff

end Tree

theorem Config.render_error {c : Config} {t : Tree} {url : Option String} {f : Failure}
    (h : c.render t url = .error f) :
    ∃ u, url = some u ∧ t.find? u = none ∧ f = .unknownUrl u := by
  unfold render at h
  split at h
  · exact nomatch h
  · split at h
    · exact nomatch h
    · exact ⟨_, rfl, ‹_›, (Except.error.inj h).symm⟩

theorem Config.render_ok {c : Config} {t : Tree} {url : Option String} {text : String}
    (h : c.render t url = .ok text) (u : String) (hu : url = some u) : t.find? u ≠ none := by
  subst hu
  intro none
  rw [render, none] at h
  exact nomatch h

namespace Invocation

open Session

/-- The configuration of a command line is loaded. -/
def Configures (host : Host Id) (i : Invocation) (c : Config) : Prop :=
  (Config.load host i.config (some i.settings)).run = .ok c

/-- The configuration is loaded, and its source has a tree. -/
structure Leads (host : Host Id) (i : Invocation) (c : Config) (t : Tree) : Prop where
  configures : i.Configures host c
  tree : ∃ source, (host.readFile c.sourcePath).run = .ok source ∧
    Tree.ofSource c.format source = .ok t

/-- A command line fails: the configuration cannot be loaded, the source cannot be read or has no
tree, or no node of the tree has the address that the command asks for. -/
inductive Fails (host : Host Id) (i : Invocation) : Failure → Prop where
  | config {fault : Config.Fault}
      (h : (Config.load host i.config (some i.settings)).run = .error fault) :
      Fails host i (.config fault)
  | unreadable {c : Config} {fault : ReadFault} (hc : i.Configures host c)
      (h : (host.readFile c.sourcePath).run = .error fault) :
      Fails host i (.unreadable c.sourcePath fault)
  | unloadable {c : Config} {source : String} {fault : LoadFault} (hc : i.Configures host c)
      (hs : (host.readFile c.sourcePath).run = .ok source)
      (h : Tree.ofSource c.format source = .error fault) :
      Fails host i (.unloadable c.sourcePath fault)
  | unknownUrl {c : Config} {source : String} {t : Tree} {url : String} (hc : i.Configures host c)
      (hs : (host.readFile c.sourcePath).run = .ok source)
      (ht : Tree.ofSource c.format source = .ok t) (hu : i.command.url? = some url)
      (h : t.find? url = none) : Fails host i (.unknownUrl url)

variable {host : Host Id} {i : Invocation} {c : Config} {t : Tree} {f g : Failure}

/-- A command line that leads to a tree fails only for the address that it asks for. -/
theorem Leads.fails_iff (h : i.Leads host c t) : i.Fails host f ↔
    ∃ url, i.command.url? = some url ∧ t.find? url = none ∧ f = .unknownUrl url := by
  obtain ⟨hc, source, hs, ht⟩ := h
  constructor
  · intro hf
    cases hf with
    | config h => exact nomatch hc.symm.trans h
    | unreadable hc' h =>
        obtain rfl := Except.ok.inj (hc.symm.trans hc')
        exact nomatch hs.symm.trans h
    | unloadable hc' hs' h =>
        obtain rfl := Except.ok.inj (hc.symm.trans hc')
        obtain rfl := Except.ok.inj (hs.symm.trans hs')
        exact nomatch ht.symm.trans h
    | unknownUrl hc' hs' ht' hu none =>
        obtain rfl := Except.ok.inj (hc.symm.trans hc')
        obtain rfl := Except.ok.inj (hs.symm.trans hs')
        obtain rfl := Except.ok.inj (ht.symm.trans ht')
        exact ⟨_, hu, none, rfl⟩
  · rintro ⟨url, hu, none, rfl⟩
    exact .unknownUrl hc hs ht hu none

/-- A command line fails in one way. -/
theorem Fails.eq (hf : i.Fails host f) (hg : i.Fails host g) : f = g := by
  cases hf with
  | unknownUrl hc hs ht hu h =>
      have leads : i.Leads host _ _ := ⟨hc, _, hs, ht⟩
      obtain ⟨url, hu', -, rfl⟩ := leads.fails_iff.mp hg
      rw [Option.some.inj (hu.symm.trans hu')]
  | config h => cases hg <;> simp_all [Configures]
  | unreadable hc h => cases hg <;> simp_all [Configures]
  | unloadable hc hs h => cases hg <;> simp_all [Configures]

/-! ### Steps -/

theorem quiet_loadConfig : Quiet (i.loadConfig host) (i.Configures host) (i.Fails host) := by
  refine (quiet_ask _).bind fun loaded hl => ?_
  cases loaded with
  | error fault => exact quiet_throw (.config hl)
  | ok c => exact quiet_pure hl

theorem quiet_loadTree (hc : i.Configures host c) :
    Quiet (i.loadTree host c) (i.Leads host c) (i.Fails host) := by
  refine (quiet_ask _).bind fun text hs => ?_
  cases text with
  | error fault => exact quiet_throw (.unreadable hc hs)
  | ok source =>
      simp only
      cases ht : Tree.ofSource c.format source with
      | error fault => exact quiet_throw (.unloadable hc hs ht)
      | ok t =>
          have leads : i.Leads host c t := ⟨hc, source, hs, ht⟩
          cases i.verbose with
          | false => exact quiet_pure leads
          | true => exact (quiet_say _ _).bind fun _ _ => quiet_pure leads

/-! ### Commands -/

/-- Where there is a tree, what cannot fail may follow if the address asked for is found. -/
theorem Leads.careful_sure (ht : i.Leads host c t) {x : Session Id Unit} (hx : Sure x)
    (found : ∀ url, i.command.url? = some url → t.find? url ≠ none) :
    Careful x (∀ f, ¬ i.Fails host f) (i.Fails host) := by
  refine hx.careful fun f hf => ?_
  obtain ⟨url, hu, none, -⟩ := ht.fails_iff.mp hf
  exact found url hu none

theorem Leads.careful_found (ht : i.Leads host c t) {url : String}
    (hu : i.command.url? = some url) {x : Session Id Unit} (hx : Sure x)
    (found : t.find? url ≠ none) : Careful x (∀ f, ¬ i.Fails host f) (i.Fails host) := by
  refine ht.careful_sure hx fun u hu' => ?_
  obtain rfl := Option.some.inj (hu.symm.trans hu')
  exact found

theorem Leads.careful_missing (ht : i.Leads host c t) {url : String}
    (hu : i.command.url? = some url) (none : t.find? url = none) :
    Careful (throw (.unknownUrl url) : Session Id Unit) (∀ f, ¬ i.Fails host f) (i.Fails host) :=
  careful_throw (ht.fails_iff.mpr ⟨url, hu, none, rfl⟩)

/-- Every command is careful: it ends well if nothing fails, and otherwise fails before any
output. -/
theorem careful_execute (host : Host Id) (i : Invocation) :
    Careful (i.execute host) (∀ f, ¬ i.Fails host f) (i.Fails host) := by
  unfold execute
  cases hi : i.command with
  | render settings url =>
      have hu : i.command.url? = url := by rw [hi, Command.url?]
      refine quiet_loadConfig.bind_careful fun c hc => ?_
      refine (quiet_loadTree hc).bind_careful fun t ht => ?_
      refine (quiet_liftExcept (fun _ => Config.render_ok) fun f hf => ?_).bind_careful
        fun text found => ht.careful_sure (sure_print text) (hu ▸ found)
      obtain ⟨u, rfl, none, rfl⟩ := Config.render_error hf
      exact ht.fails_iff.mpr ⟨u, hu, none, rfl⟩
  | find url all =>
      have hu : i.command.url? = some url := by rw [hi, Command.url?]
      refine quiet_loadConfig.bind_careful fun c hc => ?_
      refine (quiet_loadTree hc).bind_careful fun t ht => ?_
      cases hn : t.lookUp url all with
      | nil => exact ht.careful_missing hu (Tree.lookUp_eq_nil_iff.mp hn)
      | cons n ns =>
          exact ht.careful_found hu (sure_print _) fun none =>
            nomatch hn.symm.trans (Tree.lookUp_eq_nil_iff.mpr none)
  | breadcrumbs url separator =>
      have hu : i.command.url? = some url := by rw [hi, Command.url?]
      refine quiet_loadConfig.bind_careful fun c hc => ?_
      refine (quiet_loadTree hc).bind_careful fun t ht => ?_
      cases hs : t.labelTrail? separator url with
      | none => exact ht.careful_missing hu (Tree.labelTrail?_eq_none_iff.mp hs)
      | some trail =>
          exact ht.careful_found hu (sure_print _) fun none =>
            nomatch hs.symm.trans (Tree.labelTrail?_eq_none_iff.mpr none)
  | check shared =>
      have hu : i.command.url? = none := by rw [hi, Command.url?]
      refine quiet_loadConfig.bind_careful fun c hc => ?_
      -- the progress message comes before the source is read
      refine (quiet_say _ _).bind_careful fun _ _ => ?_
      refine (quiet_loadTree hc).bind_careful fun t ht => ht.careful_sure ?_ (hu ▸ nofun)
      exact (sure_print _).bind fun _ => sure_say _ _
  | document layout =>
      have hu : i.command.url? = none := by rw [hi, Command.url?]
      refine quiet_loadConfig.bind_careful fun c hc => ?_
      refine (quiet_loadTree hc).bind_careful fun t ht => ht.careful_sure ?_ (hu ▸ nofun)
      exact (sure_print _).bind fun _ => (sure_print _).bind fun _ => sure_say _ _

end Invocation

/-! ### Reports -/

/-- The last word of a report is a failure, and it has no output. -/
structure Report.Failed (r : Report) (f : Failure) : Prop where
  code : r.code = 1
  mute : Write.Mute r.writes
  output : r.output = ""
  last : r.writes.getLast? = some (.message ⟨.failure, "Error: " ++ f.message⟩)
  plain : ∃ earlier, r.messageText false = earlier ++ ("Error: " ++ f.message ++ "\n")
  coloured : ∃ earlier,
    r.messageText true = earlier ++ ("\x1b[31m" ++ ("Error: " ++ f.message) ++ "\x1b[0m\n")

theorem Write.Mute.filterMap_output? {ws : List Write} (h : Mute ws) :
    ws.filterMap Write.output? = [] := by
  refine List.filterMap_eq_nil_iff.mpr fun w hw => ?_
  cases w with
  | output text => exact absurd hw (h text)
  | message msg => rfl

theorem Report.failed_of_mute {ws : List Write} (mute : Write.Mute ws) (f : Failure) :
    (Report.failed ws f.message).Failed f := by
  have all : Write.Mute (Report.failed ws f.message).writes := mute.append (.message _)
  have text (colours : Bool) : (Report.failed ws f.message).messageText colours =
      String.join ((ws.filterMap Write.message?).map (Message.line colours)) ++
        Message.line colours ⟨.failure, "Error: " ++ f.message⟩ := by
    simp [messageText, messages, failed, List.filterMap_append, Write.message?]
  refine ⟨rfl, all, ?_, List.getLast?_concat, ⟨_, text false⟩, ⟨_, text true⟩⟩
  rw [Report.output, all.filterMap_output?]
  rfl

theorem Session.Careful.report {x : Session Id Unit} {p : Prop} {E : Failure → Prop}
    (h : Careful x p E) :
    (x.report.run.code = 0 ∧ p) ∨ ∃ f, E f ∧ x.report.run.Failed f := by
  cases h with
  | ok yields hp =>
      refine .inl ⟨?_, hp⟩
      rw [Session.report, Id.run_bind, yields []]
      rfl
  | @error f more yields mute he =>
      refine .inr ⟨f, he, ?_⟩
      have failed : x.report.run = .failed more f.message := by
        rw [Session.report, Id.run_bind, yields []]
        rfl
      rw [failed]
      exact Report.failed_of_mute mute f

namespace Program

/-- A command line that its arguments make either does not fail, and the code is zero, or it fails
in one way: the code is one, nothing at all has been written to the output, and the last message
tells the failure, in red where colours are wanted. -/
theorem run_careful {host : Host Id} {args : List String} {i : Invocation}
    (h : Command.parse (host.environment Command.sourceVariable).run args = .ok i) :
    ((run host args).run.code = 0 ∧ ∀ f, ¬ i.Fails host f) ∨
      ∃ f, i.Fails host f ∧ (∀ g, i.Fails host g → g = f) ∧ (run host args).run.Failed f := by
  have same : (run host args).run = (i.execute host).report.run := by
    rw [run, Id.run_bind, h]
  rw [same]
  rcases (i.careful_execute host).report with done | ⟨f, hf, failed⟩
  · exact .inl done
  · exact .inr ⟨f, hf, fun g hg => hg.eq hf, failed⟩

/-- A place without files, and with colours. -/
def bare : Host Id where
  directory := "/"
  hasEntry _ := false
  readFile _ := .error .missing
  environment name := if name = "CLICOLOR_FORCE" then some "1" else none

/-- Checking a file that is not there reports its progress first, and then that it is missing. -/
theorem run_careful_bare :
    ∃ i, Command.parse (bare.environment Command.sourceVariable).run ["check", "-s", "m.js"] =
        .ok i ∧
      ∃ f, i.Fails bare f ∧ (run bare ["check", "-s", "m.js"]).run.Failed f ∧
        (run bare ["check", "-s", "m.js"]).run.messages = [⟨.highlight, "Checking m.js"⟩,
          ⟨.failure, "Error: Failed to read m.js: No such file or directory (os error 2)"⟩] := by
  have parsed : (Command.parse (bare.environment Command.sourceVariable).run
      ["check", "-s", "m.js"]).toOption.map (·.source) = some (some "m.js") := by decide +kernel
  have report : (run bare ["check", "-s", "m.js"]).run = ⟨1, [
      .message ⟨.highlight, "Checking m.js"⟩,
      .message
        ⟨.failure, "Error: Failed to read m.js: No such file or directory (os error 2)"⟩]⟩ := by
    decide +kernel
  obtain ⟨i, hi, -⟩ := Text.toOption_map_eq_some.mp parsed
  refine ⟨i, hi, ?_⟩
  rcases run_careful hi with ⟨code, -⟩ | ⟨f, hf, -, failed⟩
  · exact nomatch (congrArg Report.code report).symm.trans code
  · exact ⟨f, hf, failed, congrArg Report.messages report⟩

end Program

end Sidebar
