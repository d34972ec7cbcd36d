import Mathlib.Data.List.DropRight
import Sidebar.Host.FilePath
import Sidebar.Proofs.Text.Split

/-!
# Host — the directories above a path

Between its slashes an absolute path has parts.  Those that are empty or a `.` are no names, and
count for nothing.  The directories above the path are what is left of it when names are taken off
its end, one after the other, each with all that stands behind the name before it.

* `Above`: a directory lies above an absolute path.
* `parent?_eq_some`, `parent?_eq_none`: the parent of an absolute path.
* `mem_upward_iff`: what is met on the way up are the path and the directories above it.
* `pairwise_upward`: each of them lies above those met before it.
-/

namespace Sidebar.FilePath

/-- The path through some parts, from the root on. -/
def rooted (ps : List (List Char)) : String := String.ofList ('/' :: ['/'].intercalate ps)

/-- The parts of an absolute path. -/
def parts (path : String) : List (List Char) := (path.toList.drop 1).splitOn '/'

/-- The last part, if there is any, is a name. -/
def Trimmed (ps : List (List Char)) : Prop := ∀ p ∈ ps.getLast?, isName p = true

/-- The directory lies above an absolute path: it ends with a name of the path or at the root, and
there is a name behind it. -/
def Above (path d : String) : Prop :=
  ∃ xs ys, parts path = xs ++ ys ∧ d = rooted xs ∧ Trimmed xs ∧ ∃ y ∈ ys, isName y = true

/-- The directory is the path itself, or lies above it. -/
def AtOrAbove (path d : String) : Prop := d = path ∨ Above path d

variable {xs ys ps qs : List (List Char)} {path d e : String} {n : Nat}

/-! ### Parts -/

theorem intercalate_cons (p : List Char) (h : ps ≠ []) :
    ['/'].intercalate (p :: ps) = p ++ '/' :: ['/'].intercalate ps := by
  rw [List.intercalate_cons_of_ne_nil h, List.append_assoc, List.singleton_append]

theorem intercalate_append (hx : xs ≠ []) (hy : ys ≠ []) : ['/'].intercalate (xs ++ ys) =
    ['/'].intercalate xs ++ '/' :: ['/'].intercalate ys := by
  induction xs with
  | nil => exact absurd rfl hx
  | cons x xs ih =>
      by_cases e : xs = []
      · rw [e, List.singleton_append, intercalate_cons x hy, List.intercalate_singleton]
      · rw [List.cons_append, intercalate_cons x (List.append_ne_nil_of_left_ne_nil e ys), ih e,
          intercalate_cons x e, List.append_assoc, List.cons_append]

theorem toList_rooted (ps : List (List Char)) :
    (rooted ps).toList = '/' :: ['/'].intercalate ps := String.toList_ofList

theorem isAbsolute_rooted (ps : List (List Char)) : isAbsolute (rooted ps).toList = true := by
  rw [toList_rooted]
  rfl

theorem rooted_parts (h : isAbsolute path.toList = true) : rooted (parts path) = path := by
  obtain ⟨s, hs⟩ : ∃ s, path.toList = '/' :: s := by
    cases e : path.toList with
    | nil => rw [e] at h; exact absurd h (by decide)
    | cons c s =>
        rw [e, isAbsolute, List.head?_cons, beq_iff_eq, Option.some.injEq] at h
        exact ⟨s, by rw [h]⟩
  rw [rooted, parts, List.intercalate_splitOn, hs, List.drop_one, List.tail_cons, ← hs,
    String.ofList_toList]

theorem parts_rooted (slashes : ∀ p ∈ ps, '/' ∉ p) (h : ps ≠ []) : parts (rooted ps) = ps := by
  rw [parts, toList_rooted, List.drop_one, List.tail_cons, List.splitOn_intercalate '/' slashes h]

/-! ### Where names end -/

theorem nameEnds_append (name s t : List Char) : nameEnds n name (s ++ '/' :: t) =
    nameEnds n name s ++ nameEnds (n + s.length + 1) [] t := by
  induction s generalizing n name with
  | nil => rfl
  | cons c s ih =>
      have length : n + (c :: s).length + 1 = n + 1 + s.length + 1 := by
        rw [List.length_cons]
        omega
      rw [List.cons_append, length]
      by_cases h : c = '/'
      · subst h
        rw [nameEnds, nameEnds, ih, List.append_assoc]
      · rw [nameEnds, nameEnds, ih]
        · exact h
        · exact h

/-- Between two slashes a name ends where the text does, if the text is a name. -/
theorem nameEnds_part {s : List Char} (h : '/' ∉ s) (name : List Char) :
    nameEnds n name s = if isName (name ++ s) then [n + s.length] else [] := by
  induction s generalizing n name with
  | nil => rw [nameEnds, List.append_nil, List.length_nil, Nat.add_zero]
  | cons c s ih =>
      obtain ⟨hc, hs⟩ := not_or.mp (mt List.mem_cons.mpr h)
      rw [nameEnds, ih hs, List.append_assoc, List.singleton_append, List.length_cons,
        Nat.add_right_comm, Nat.add_assoc]
      exact Ne.symm hc

theorem nameEnds_nameless (slashes : ∀ p ∈ ps, '/' ∉ p) (none : ∀ p ∈ ps, ¬ isName p = true) :
    nameEnds n [] (['/'].intercalate ps) = [] := by
  induction ps generalizing n with
  | nil => rfl
  | cons p ps ih =>
      obtain ⟨hp, hps⟩ := List.forall_mem_cons.mp slashes
      obtain ⟨noName, noNames⟩ := List.forall_mem_cons.mp none
      have first : nameEnds n [] p = [] := by
        rw [nameEnds_part hp, List.nil_append, if_neg noName]
      by_cases e : ps = []
      · rw [e, List.intercalate_singleton, first]
      · rw [intercalate_cons p e, nameEnds_append, first, ih hps noNames, List.append_nil]

/-- The last name of some parts ends where it stands, and those in front of it end as they do
without it. -/
theorem nameEnds_last {x : List Char} (slashes : ∀ p ∈ xs ++ x :: ys, '/' ∉ p)
    (name : isName x = true) (none : ∀ y ∈ ys, ¬ isName y = true) :
    nameEnds n [] (['/'].intercalate (xs ++ x :: ys)) =
      nameEnds n [] (['/'].intercalate xs) ++ [n + (['/'].intercalate (xs ++ [x])).length] := by
  obtain ⟨-, hys⟩ := List.forall_mem_append.mp slashes
  obtain ⟨hx, hys⟩ := List.forall_mem_cons.mp hys
  have last (n : Nat) : nameEnds n [] (['/'].intercalate (x :: ys)) = [n + x.length] := by
    have first : nameEnds n [] x = [n + x.length] := by
      rw [nameEnds_part hx, List.nil_append, if_pos name]
    by_cases e : ys = []
    · rw [e, List.intercalate_singleton, first]
    · rw [intercalate_cons x e, nameEnds_append, first, nameEnds_nameless hys none,
        List.append_nil]
  by_cases e : xs = []
  · rw [e, List.nil_append, List.nil_append, last, List.intercalate_singleton]
    rfl
  · rw [intercalate_append e (List.cons_ne_nil _ _), nameEnds_append, last,
      intercalate_append e (List.cons_ne_nil _ _), List.intercalate_singleton, List.length_append,
      List.length_cons]
    congr 2
    omega

/-! ### Parents -/

/-- The parent of an absolute path ends with the last name but one, or is the root. -/
theorem parent?_eq_some {x : List Char} (h : isAbsolute path.toList = true)
    (text : parts path = xs ++ (ps ++ x :: qs)) (trimmed : Trimmed xs)
    (between : ∀ p ∈ ps, ¬ isName p = true) (name : isName x = true)
    (behind : ∀ q ∈ qs, ¬ isName q = true) : parent? path = some (rooted xs) := by
  have slashes : ∀ p ∈ xs ++ ps ++ x :: qs, '/' ∉ p := fun p hp =>
    Text.notMem_of_mem_splitOn (by rwa [List.append_assoc, ← text] at hp)
  have whole : path.toList = '/' :: ['/'].intercalate (xs ++ ps ++ x :: qs) := by
    rw [List.append_assoc, ← text, ← toList_rooted, rooted_parts h]
  have inner := (List.forall_mem_append.mp slashes).1
  rw [parent?, whole]
  simp only [lead, List.drop_one, List.tail_cons]
  rw [nameEnds_last slashes name behind, List.reverse_append, List.reverse_singleton,
    List.singleton_append]
  rcases List.eq_nil_or_concat' xs with rfl | ⟨init, a, rfl⟩
  · rw [List.nil_append, nameEnds_nameless (show ∀ p ∈ ps, '/' ∉ p from inner) between]
    rfl
  · have last : isName a = true := trimmed a (by rw [List.getLast?_concat]; rfl)
    have ends : init ++ [a] ++ ps = init ++ a :: ps := by rw [List.append_assoc]; rfl
    have cut : ['/'].intercalate (init ++ [a] ++ ps ++ x :: qs) =
        ['/'].intercalate (init ++ [a]) ++ '/' :: ['/'].intercalate (ps ++ x :: qs) := by
      rw [List.append_assoc, intercalate_append (by simp) (by simp)]
    rw [cut, ends, nameEnds_last (by rwa [ends] at inner) last between, List.reverse_append,
      List.reverse_singleton, List.singleton_append]
    simp only [Nat.add_comm 1, List.take_succ_cons, List.take_left]
    rfl

/-- A path without names has no parent. -/
theorem parent?_eq_none (h : isAbsolute path.toList = true)
    (nameless : ∀ p ∈ parts path, ¬ isName p = true) : parent? path = none := by
  have slashes : ∀ p ∈ parts path, '/' ∉ p := fun p hp => Text.notMem_of_mem_splitOn hp
  have whole : path.toList = '/' :: ['/'].intercalate (parts path) := by
    rw [← toList_rooted, rooted_parts h]
  rw [parent?, whole]
  simp only [lead, List.drop_one, List.tail_cons]
  rw [nameEnds_nameless slashes nameless]
  rfl

/-- Some parts up to the last name, and those behind it. -/
theorem exists_trimmed (ps : List (List Char)) :
    ∃ xs ys, ps = xs ++ ys ∧ Trimmed xs ∧ ∀ y ∈ ys, ¬ isName y = true := by
  refine ⟨ps.rdropWhile (!isName ·), ps.rtakeWhile (!isName ·), ?_, fun p hp => ?_, fun y hy => ?_⟩
  · exact (List.rdropWhile_append_rtakeWhile ..).symm
  · obtain ⟨hl, rfl⟩ := List.mem_getLast?_eq_getLast hp
    simpa using List.rdropWhile_last_not (fun p => !isName p) ps hl
  · simpa using List.mem_rtakeWhile_imp hy

/-- The last name of some parts, the name in front of it, and what stands between them. -/
theorem exists_last_name {y : List Char} (hy : y ∈ ps) (name : isName y = true) :
    ∃ xs mid x ys, ps = xs ++ (mid ++ x :: ys) ∧ Trimmed xs ∧ (∀ p ∈ mid, ¬ isName p = true) ∧
      isName x = true ∧ ∀ y ∈ ys, ¬ isName y = true := by
  obtain ⟨front, ys, rfl, trimmed, behind⟩ := exists_trimmed ps
  rcases List.eq_nil_or_concat' front with rfl | ⟨front, x, rfl⟩
  · exact absurd name (behind y hy)
  · obtain ⟨xs, mid, rfl, trimmed', between⟩ := exists_trimmed front
    refine ⟨xs, mid, x, ys, by simp, trimmed', between, trimmed x ?_, behind⟩
    rw [List.getLast?_concat]
    rfl

/-! ### Directories above -/

theorem isAbsolute_of_above (h : Above path d) : isAbsolute d.toList = true := by
  obtain ⟨xs, ys, -, rfl, -⟩ := h
  exact isAbsolute_rooted xs

/-- The directories above a path are its parent and those above the parent. -/
theorem above_iff (h : isAbsolute path.toList = true) :
    Above path d ↔ ∃ p, parent? path = some p ∧ AtOrAbove p d := by
  have slashes : ∀ p ∈ parts path, '/' ∉ p := fun p hp => Text.notMem_of_mem_splitOn hp
  constructor
  · rintro ⟨xs, ys, text, rfl, trimmed, y, hy, name⟩
    obtain ⟨front, mid, x, behind, rfl, trimmed', between, name', behind'⟩ :=
      exists_last_name hy name
    rcases List.eq_nil_or_concat' front with rfl | ⟨init, a, hfront⟩
    · -- the directory ends with the last name but one
      exact ⟨_, parent?_eq_some h text trimmed between name' behind', .inl rfl⟩
    · have last : front.getLast? = some a := by rw [hfront, List.getLast?_concat]
      have found : front ≠ [] := by simp [hfront]
      have trimmed'' : Trimmed (xs ++ front) := by
        rw [Trimmed, List.getLast?_append_of_ne_nil _ found]
        exact trimmed'
      rw [← List.append_assoc] at text
      refine ⟨_, parent?_eq_some h text trimmed'' between name' behind', .inr ?_⟩
      rw [text] at slashes
      refine ⟨xs, front, parts_rooted (List.forall_mem_append.mp slashes).1 ?_, rfl, trimmed, a,
        List.mem_of_getLast? last, trimmed' a last⟩
      exact List.append_ne_nil_of_right_ne_nil xs found
  · rintro ⟨p, hp, hd⟩
    by_cases named : ∃ y ∈ parts path, isName y = true
    case neg =>
      have none := parent?_eq_none h fun q hq name => named ⟨q, hq, name⟩
      exact nomatch none.symm.trans hp
    obtain ⟨y, hy, name⟩ := named
    obtain ⟨xs, mid, x, ys, text, trimmed, between, name, behind⟩ := exists_last_name hy name
    obtain rfl := Option.some.inj ((parent?_eq_some h text trimmed between name behind).symm.trans hp)
    rcases hd with rfl | ⟨us, vs, text', rfl, trimmed', z, hz, name'⟩
    · exact ⟨xs, _, text, rfl, trimmed, x, by simp, name⟩
    by_cases e : xs = []
    · -- above the root there is nothing
      subst e
      have empty : z ∈ us ++ vs := List.mem_append_right us hz
      rw [← text'] at empty
      obtain rfl := List.mem_singleton.mp empty
      exact absurd name' (by decide)
    · rw [text] at slashes
      rw [parts_rooted (List.forall_mem_append.mp slashes).1 e] at text'
      rw [text', List.append_assoc] at text
      exact ⟨us, _, text, rfl, trimmed', z, List.mem_append_left _ hz, name'⟩

/-- A directory above a path is shorter. -/
theorem Above.length_lt (hd : Above path d) (h : isAbsolute path.toList = true) :
    d.length < path.length := by
  obtain ⟨xs, ys, text, rfl, -, y, hy, name⟩ := hd
  have whole : path.toList = '/' :: ['/'].intercalate (xs ++ ys) := by
    rw [← text, ← toList_rooted, rooted_parts h]
  rw [← String.length_toList, ← String.length_toList, whole, toList_rooted, List.length_cons,
    List.length_cons, Nat.add_lt_add_iff_right]
  by_cases e : xs = []
  · subst e
    refine Nat.pos_of_ne_zero fun zero => ?_
    have empty : ys = [[]] := by
      rw [List.nil_append] at text whole zero
      rw [← text, parts, whole, List.eq_nil_of_length_eq_zero zero]
      rfl
    obtain rfl := List.mem_singleton.mp (empty ▸ hy)
    exact absurd name (by decide)
  · rw [intercalate_append e (List.ne_nil_of_mem hy), List.length_append, List.length_cons]
    exact Nat.lt_add_of_pos_right (Nat.succ_pos _)

theorem above_of_parent? (h : isAbsolute path.toList = true) (hp : parent? path = some d) :
    Above path d := (above_iff h).mpr ⟨d, hp, .inl rfl⟩

/-! ### The way up -/

/-- As many steps as a path is long are enough for the way up. -/
theorem mem_upwardFrom_iff (h : isAbsolute path.toList = true) (size : path.length < n) :
    d ∈ upwardFrom n path ↔ AtOrAbove path d := by
  induction n generalizing path with
  | zero => exact absurd size (Nat.not_lt_zero _)
  | succ n ih =>
      rw [upwardFrom, List.mem_cons, AtOrAbove, above_iff h]
      refine or_congr_right ?_
      cases hp : parent? path with
      | none => exact ⟨fun hd => absurd hd List.not_mem_nil, fun ⟨_, e, _⟩ => nomatch e⟩
      | some p =>
          have above := above_of_parent? h hp
          have shorter := Nat.lt_of_lt_of_le (above.length_lt h) (Nat.le_of_lt_succ size)
          rw [ih (isAbsolute_of_above above) shorter]
          exact ⟨fun hd => ⟨p, rfl, hd⟩, fun ⟨_, e, hd⟩ => Option.some.inj e ▸ hd⟩

theorem mem_upward_iff (h : isAbsolute path.toList = true) :
    d ∈ upward path ↔ AtOrAbove path d :=
  mem_upwardFrom_iff h (Nat.lt_succ_self _)

example : upward "/docs//api/./v2" = ["/docs//api/./v2", "/docs//api", "/docs", "/"] := by
  decide +kernel

theorem pairwise_upwardFrom (h : isAbsolute path.toList = true) (size : path.length < n) :
    (upwardFrom n path).Pairwise Above := by
  induction n generalizing path with
  | zero => exact .nil
  | succ n ih =>
      rw [upwardFrom]
      cases hp : parent? path with
      | none => exact .cons nofun .nil
      | some p =>
          have above := above_of_parent? h hp
          have absolute := isAbsolute_of_above above
          have shorter := Nat.lt_of_lt_of_le (above.length_lt h) (Nat.le_of_lt_succ size)
          refine .cons (fun d hd => ?_) (ih absolute shorter)
          exact (above_iff h).mpr ⟨p, hp, (mem_upwardFrom_iff absolute shorter).mp hd⟩

theorem pairwise_upward (h : isAbsolute path.toList = true) : (upward path).Pairwise Above :=
  pairwise_upwardFrom h (Nat.lt_succ_self _)

end Sidebar.FilePath
