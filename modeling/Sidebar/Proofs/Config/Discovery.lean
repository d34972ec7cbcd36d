import Sidebar.Proofs.Config.Layer
import Sidebar.Proofs.Host.FilePath

/-!
# Config — the file that is found

Where no configuration file is named, the working directory and the directories above it are asked
for one, and the first that has an entry of that name settles it.  What is in the entry plays no
part: the outcome is that of naming it, also where it cannot be read or says something wrong.

* `Config.Nearest`: the nearest directory that has a configuration file.
* `find?_eq_some_iff`: it is the first one met on the way up.
* `load_nearest`: loading without a name, on every host whose working directory is absolute.
-/

namespace Sidebar.Config

open FilePath

/-! ### The nearest directory -/

/-- The directory has an entry with the name of a configuration file. -/
def hasFile (host : Host Id) (d : String) : Bool := (host.hasEntry (join d fileName)).run

/-- The directory is the working directory or lies above it, and has a configuration file.  All the
others of these that have one lie above this one. -/
structure Nearest (host : Host Id) (d : String) : Prop where
  above : AtOrAbove host.directory.run d
  file : hasFile host d = true
  first : ∀ e, AtOrAbove host.directory.run e → hasFile host e = true → AtOrAbove d e

variable {host : Host Id} {d e : String}

section
variable (absolute : isAbsolute host.directory.run.toList = true)
include absolute

theorem isAbsolute_of_nearest (h : Nearest host d) : isAbsolute d.toList = true := by
  rcases h.above with rfl | above
  · exact absolute
  · exact isAbsolute_of_above above

theorem Nearest.unique (hd : Nearest host d) (he : Nearest host e) : d = e := by
  rcases hd.first e he.above he.file with same | below
  · exact same.symm
  rcases he.first d hd.above hd.file with same | above
  · exact same
  · exact absurd (above.length_lt (isAbsolute_of_nearest absolute he))
      (Nat.lt_asymm (below.length_lt (isAbsolute_of_nearest absolute hd)))

/-- The first directory on the way up that has a configuration file is the nearest. -/
theorem nearest_of_find? (h : (upward host.directory.run).find? (hasFile host) = some d) :
    Nearest host d := by
  obtain ⟨file, before, behind, way, without⟩ := List.find?_eq_some_iff_append.mp h
  have above := (mem_upward_iff absolute).mp (List.mem_of_find?_eq_some h)
  have ordered := pairwise_upward absolute
  rw [way, List.pairwise_append] at ordered
  refine ⟨above, file, fun e he fileThere => ?_⟩
  have met := (mem_upward_iff absolute).mpr he
  rw [way, List.mem_append, List.mem_cons] at met
  rcases met with early | same | late
  · have missing := without e early
    rw [fileThere] at missing
    exact absurd missing (by decide)
  · exact .inl same
  · exact .inr (List.rel_of_pairwise_cons ordered.2.1 late)

theorem find?_eq_none_iff : (upward host.directory.run).find? (hasFile host) = none ↔
    ∀ d, AtOrAbove host.directory.run d → ¬ hasFile host d = true := by
  rw [List.find?_eq_none]
  exact forall_congr' fun d => imp_congr_left (mem_upward_iff absolute)

theorem find?_eq_some_iff :
    (upward host.directory.run).find? (hasFile host) = some d ↔ Nearest host d := by
  refine ⟨nearest_of_find? absolute, fun nearest => ?_⟩
  cases found : (upward host.directory.run).find? (hasFile host) with
  | none => exact absurd nearest.file ((find?_eq_none_iff absolute).mp found d nearest.above)
  | some e => rw [(nearest_of_find? absolute found).unique absolute nearest]

theorem exists_nearest (above : AtOrAbove host.directory.run d) (file : hasFile host d = true) :
    ∃ e, Nearest host e := by
  cases found : (upward host.directory.run).find? (hasFile host) with
  | none => exact absurd file ((find?_eq_none_iff absolute).mp found d above)
  | some e => exact ⟨e, nearest_of_find? absolute found⟩

end

/-! ### Loading -/

/-- Without a name, loading begins with the file that is found, or with the standard. -/
theorem run_loadBase_none (host : Host Id) : (loadBase host none).run =
    match (upward host.directory.run).find? (hasFile host) with
    | some d => (loadFile host (join d fileName)).run
    | none   => .ok (standard host.directory.run) := by
  have way : ((candidates host.directory.run).findM? host.hasEntry).run =
      ((upward host.directory.run).find? (hasFile host)).map (join · fileName) := by
    rw [List.idRun_findM?, candidates, List.find?_map]
    rfl
  simp only [loadBase, Id.run_bind]
  rw [way]
  cases (upward host.directory.run).find? (hasFile host) <;> rfl

theorem run_loadBase_some (file : hasFile host d = true) :
    (loadBase host (some (join d fileName))).run = (loadFile host (join d fileName)).run := by
  have there : (host.hasEntry (join d fileName)).run = true := file
  simp only [loadBase, Id.run_bind, there]
  rfl

/-- What comes of a configuration and settings: the configuration itself where there are none, and
otherwise what they make of it, if that meets the rules. -/
def Comes (c : Config) (settings : Option Settings) (outcome : Except Fault Config) : Prop :=
  match settings with
  | none   => outcome = .ok c
  | some s => ∃ c', c.Layered s c' ∧ (c'.Valid → outcome = .ok c') ∧
      (¬ c'.Valid → ∃ rule, ¬ c'.Meets rule ∧ outcome = .error (.invalid rule))

theorem comes_layer (c : Config) (settings : Option Settings) :
    c.Comes settings (layer settings c) := by
  cases settings with
  | none => rfl
  | some s =>
      refine ⟨_, c.layered_override s, ?_⟩
      rcases (c.override s).validate_cases with ⟨valid, e⟩ | ⟨rule, broken, e⟩
      · exact ⟨fun _ => e, fun invalid => absurd valid invalid⟩
      · exact ⟨fun valid => absurd (valid rule) broken, fun _ => ⟨rule, broken, e⟩⟩

/-- If the working directory or a directory above it has a configuration file, then loading without
a name is loading the file of the nearest of them by its name, whatever that comes to.  If none has
one, the standard configuration is loaded, with the menu in the working directory. -/
theorem load_nearest (host : Host Id) (absolute : isAbsolute host.directory.run.toList = true)
    (settings : Option Settings) :
    (∀ d, AtOrAbove host.directory.run d → hasFile host d = true → ∃ e, Nearest host e) ∧
      (∀ d, Nearest host d →
        (load host none settings).run = (load host (some (join d fileName)) settings).run) ∧
      ((∀ d, AtOrAbove host.directory.run d → ¬ hasFile host d = true) →
        Comes ⟨join host.directory.run "menudata.js", .auto, .tree, 2, none, none, none⟩ settings
          (load host none settings).run) := by
  have layers (path : Option String) :
      (load host path settings).run = (loadBase host path).run.bind (layer settings) := rfl
  refine ⟨fun d => exists_nearest absolute, fun d nearest => ?_, fun without => ?_⟩
  · rw [layers, layers, run_loadBase_none, (find?_eq_some_iff absolute).mpr nearest,
      run_loadBase_some nearest.file]
  · rw [layers, run_loadBase_none, (find?_eq_none_iff absolute).mpr without]
    exact comes_layer (standard host.directory.run) settings

/-- A working directory with a configuration file in two of those above it; that of the nearer one
is a directory itself. -/
def blocked : Host Id where
  directory := "/docs/api/v2"
  hasEntry path := path == "/docs/navmenu.toml" || path == "/navmenu.toml"
  readFile path := if path = "/navmenu.toml" then .ok "" else .error .isADirectory
  environment _ := none

/-- The file of the nearer directory is found, and it cannot be read; the other plays no part.
Where no directory has a file, the standard is loaded. -/
theorem load_nearest_blocked :
    isAbsolute blocked.directory.run.toList = true ∧ Nearest blocked "/docs" ∧
      (load blocked none none).run = .error (.unreadable .isADirectory) ∧
      (load { blocked with hasEntry := fun _ => false } none none).run =
        .ok ⟨"/docs/api/v2/menudata.js", .auto, .tree, 2, none, none, none⟩ := by
  have absolute : isAbsolute blocked.directory.run.toList = true := by decide
  have found : (upward blocked.directory.run).find? (hasFile blocked) = some "/docs" := by
    decide +kernel
  have nearest := (find?_eq_some_iff absolute).mp found
  refine ⟨absolute, nearest, ?_, ?_⟩
  · rw [(load_nearest blocked absolute none).2.1 _ nearest]
    rfl
  · exact (load_nearest { blocked with hasEntry := fun _ => false } absolute none).2.2
      fun d _ => Bool.false_ne_true

end Sidebar.Config
