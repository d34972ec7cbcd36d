import Mathlib.Data.List.Chain
import Sidebar.Proofs.Tree.Build
import Sidebar.Proofs.Text.Step

/-!
# Tree — a tree is known by its rows

The rows of a tree say of each node how deep it is and nothing of what is above it.  That is
enough: what is below a node are the rows behind it that are deeper, up to the first that is not.
So the rows give back the outline, and they are the rows of one exactly when they begin at the top
and never go down by more than one level.

* `Item.grown`: the items that some rows tell of.
* `Item.Stepwise`: rows that begin at the top and go down level by level.
* `Outline.ofListing_listing`, `Outline.listing_ofListing`: from an outline to its rows and back.
* `Tree.listing_faithful`: trees with the same rows hold the same outline, and which rows are those
  of a tree.
-/

namespace Sidebar

open Text

namespace Item

/-! ### Items from rows -/

/-- The items that some rows tell of, each with its depth.  The first row has the items below it
that come next and are deeper. -/
def grown : List (String × String × Nat) → List (Nat × Item)
  | []                         => []
  | (text, url, depth) :: rows =>
    (depth, ⟨text, url, ((grown rows).takeWhile fun p => depth < p.1).map (·.2)⟩) ::
      (grown rows).dropWhile fun p => depth < p.1

variable {d : Nat} {rows : List (String × String × Nat)}

/-- The first item has the depth of the first row. -/
theorem head?_grown (rows : List (String × String × Nat)) :
    (grown rows).head?.map (·.1) = rows.head?.map (·.2.2) := by
  cases rows with
  | nil => rfl
  | cons row rows => rfl

theorem depth_le_of_mem_head?_grown (h : ∀ row ∈ rows.head?, row.2.2 ≤ d) :
    ∀ p ∈ (grown rows).head?, p.1 ≤ d := by
  intro p hp
  have depth := head?_grown rows
  rw [Option.mem_def.mp hp, Option.map_some] at depth
  obtain ⟨row, hrow, e⟩ := Option.map_eq_some_iff.mp depth.symm
  exact e ▸ h row hrow

/-- The rows of items, and then rows that are not below them. -/
theorem head?_listingAll_append (xs : List Item) (h : ∀ row ∈ rows.head?, row.2.2 ≤ d) :
    ∀ row ∈ (listingAll d xs ++ rows).head?, row.2.2 ≤ d := by
  match xs with
  | [] => exact h
  | ⟨text, url, children⟩ :: xs =>
    intro row hrow
    rw [listingAll, listing] at hrow
    obtain rfl := Option.some.inj hrow
    exact Nat.le_refl d

mutual

/-- The rows of an item give it back, whatever comes behind it that is not below it. -/
theorem grown_listing {d : Nat} {rows : List (String × String × Nat)} : (x : Item) →
    (∀ row ∈ rows.head?, row.2.2 ≤ d) → grown (x.listing d ++ rows) = (d, x) :: grown rows
  | ⟨text, url, children⟩, h => by
      have below : ∀ p ∈ children.map (d + 1, ·), decide (d < p.1) = true := by
        intro p hp
        obtain ⟨y, -, rfl⟩ := List.mem_map.mp hp
        exact decide_eq_true (Nat.lt_succ_self d)
      have behind : ∀ p ∈ (grown rows).head?, ¬ decide (d < p.1) = true := by
        intro p hp
        simpa using depth_le_of_mem_head?_grown h p hp
      have items := grown_listingAll (d := d + 1) children fun row hrow =>
        Nat.le_succ_of_le (h row hrow)
      rw [listing, List.cons_append, grown, items, takeWhile_append_eq below behind,
        dropWhile_append_eq below behind, List.map_map]
      exact congrArg (fun ys => (d, Item.mk text url ys) :: grown rows) (List.map_id _)

theorem grown_listingAll {d : Nat} {rows : List (String × String × Nat)} : (xs : List Item) →
    (∀ row ∈ rows.head?, row.2.2 ≤ d) →
    grown (listingAll d xs ++ rows) = xs.map (d, ·) ++ grown rows
  | [], _ => rfl
  | x :: xs, h => by
      rw [listingAll, List.append_assoc, grown_listing x (head?_listingAll_append xs h),
        grown_listingAll xs h, List.map_cons, List.cons_append]

end

/-! ### Rows from items -/

/-- A row is at most one level below the one before it, and the first is at the top. -/
structure Stepwise (rows : List (String × String × Nat)) : Prop where
  first : ∀ row ∈ rows.head?, row.2.2 = 0
  step : rows.IsChain fun a b => b.2.2 ≤ a.2.2 + 1

mutual

theorem isChain_listing {d : Nat} {rows : List (String × String × Nat)} : (x : Item) →
    (∀ row ∈ rows.head?, row.2.2 ≤ d) → rows.IsChain (fun a b => b.2.2 ≤ a.2.2 + 1) →
    (x.listing d ++ rows).IsChain fun a b => b.2.2 ≤ a.2.2 + 1
  | ⟨text, url, children⟩, h, step => by
      have h' : ∀ row ∈ rows.head?, row.2.2 ≤ d + 1 := fun row hrow =>
        Nat.le_succ_of_le (h row hrow)
      rw [listing, List.cons_append]
      exact (isChain_listingAll children h' step).cons (head?_listingAll_append children h')

theorem isChain_listingAll {d : Nat} {rows : List (String × String × Nat)} : (xs : List Item) →
    (∀ row ∈ rows.head?, row.2.2 ≤ d) → rows.IsChain (fun a b => b.2.2 ≤ a.2.2 + 1) →
    (listingAll d xs ++ rows).IsChain fun a b => b.2.2 ≤ a.2.2 + 1
  | [], _, step => step
  | x :: xs, h, step => by
      rw [listingAll, List.append_assoc]
      exact isChain_listing x (head?_listingAll_append xs h) (isChain_listingAll xs h step)

end

/-- Where no item is deeper than the one before it, none is deeper than the first. -/
theorem depth_le_of_pairwise {ps : List (Nat × Item)} (sorted : ps.Pairwise fun p q => q.1 ≤ p.1)
    (first : ∀ p ∈ ps.head?, p.1 ≤ d) : ∀ p ∈ ps, p.1 ≤ d := by
  cases ps with
  | nil => exact nofun
  | cons q ps =>
      have hq : q.1 ≤ d := first q rfl
      refine List.forall_mem_cons.mpr ⟨hq, fun p hp => ?_⟩
      exact Nat.le_trans (List.rel_of_pairwise_cons sorted hp) hq

/-- No item is deeper than one before it. -/
theorem pairwise_grown (rows : List (String × String × Nat)) :
    (grown rows).Pairwise fun p q => q.1 ≤ p.1 := by
  induction rows with
  | nil => exact .nil
  | cons row rows ih =>
      obtain ⟨text, url, depth⟩ := row
      rw [grown]
      have rest := ih.sublist (List.dropWhile_sublist fun p => decide (depth < p.1))
      refine .cons (depth_le_of_pairwise rest fun q hq => ?_) rest
      simpa using not_of_mem_head?_dropWhile hq

/-- No item is deeper than the first row. -/
theorem depth_le_of_mem_grown (h : ∀ row ∈ rows.head?, row.2.2 ≤ d) :
    ∀ p ∈ grown rows, p.1 ≤ d :=
  depth_le_of_pairwise (pairwise_grown rows) (depth_le_of_mem_head?_grown h)

/-- Items of one depth have the rows that each of them has. -/
theorem listingAll_map (ps : List (Nat × Item)) (h : ∀ p ∈ ps, p.1 = d) :
    listingAll d (ps.map (·.2)) = ps.flatMap fun p => p.2.listing p.1 := by
  induction ps with
  | nil => rfl
  | cons p ps ih =>
      obtain ⟨hp, hps⟩ := List.forall_mem_cons.mp h
      rw [List.map_cons, listingAll, List.flatMap_cons, ih hps, hp]

/-- Rows that go down level by level are those of the items they tell of. -/
theorem flatMap_listing_grown (h : rows.IsChain fun a b => b.2.2 ≤ a.2.2 + 1) :
    (grown rows).flatMap (fun p => p.2.listing p.1) = rows := by
  induction rows with
  | nil => rfl
  | cons row rows ih =>
      obtain ⟨text, url, depth⟩ := row
      obtain ⟨next, step⟩ := List.isChain_cons.mp h
      -- what is deeper is one level deeper, as the first is
      have le : ∀ p ∈ grown rows, p.1 ≤ depth + 1 := depth_le_of_mem_grown next
      have below : ∀ p ∈ (grown rows).takeWhile (fun p => depth < p.1), p.1 = depth + 1 := by
        intro p hp
        have lt : depth < p.1 := of_decide_eq_true (List.all_eq_true.mp List.all_takeWhile p hp)
        exact Nat.le_antisymm (le p ((List.takeWhile_sublist _).subset hp)) lt
      rw [grown, List.flatMap_cons, listing, listingAll_map _ below, List.cons_append,
        ← List.flatMap_append, List.takeWhile_append_dropWhile, ih step]

/-! ### Labels -/

mutual

theorem unlabelled?_eq_none_iff (path : Path) (d : Nat) : (x : Item) →
    (x.unlabelled? path = none ↔ ∀ row ∈ x.listing d, row.1 ≠ "")
  | ⟨text, url, children⟩ => by
      rw [unlabelled?, listing, List.forall_mem_cons,
        ← unlabelledAmong?_eq_none_iff path 0 (d + 1) children]
      by_cases h : text = ""
      · simp [h]
      · simp [h]

theorem unlabelledAmong?_eq_none_iff (path : Path) (i d : Nat) : (xs : List Item) →
    (unlabelledAmong? path i xs = none ↔ ∀ row ∈ listingAll d xs, row.1 ≠ "")
  | [] => by simp [unlabelledAmong?, listingAll]
  | x :: xs => by
      rw [unlabelledAmong?, listingAll, List.forall_mem_append, Option.or_eq_none_iff,
        unlabelled?_eq_none_iff (path ++ [i]) d x, unlabelledAmong?_eq_none_iff path (i + 1) d xs]

end

end Item

namespace Outline

/-- The outline that some rows tell of. -/
def ofListing (rows : List (String × String × Nat)) : Outline := ⟨(Item.grown rows).map (·.2)⟩

/-- The rows of an outline give it back. -/
theorem ofListing_listing (o : Outline) : ofListing o.listing = o := by
  have none : ∀ row ∈ ([] : List (String × String × Nat)).head?, row.2.2 ≤ 0 := nofun
  have items := Item.grown_listingAll o.items none
  rw [List.append_nil, Item.grown, List.append_nil] at items
  rw [ofListing, listing, items, List.map_map]
  exact congrArg Outline.mk (List.map_id _)

/-- Rows that go down level by level are those of an outline. -/
theorem listing_ofListing {rows : List (String × String × Nat)} (h : Item.Stepwise rows) :
    (ofListing rows).listing = rows := by
  have le := Item.depth_le_of_mem_grown fun row hrow => Nat.le_of_eq (h.first row hrow)
  have top : ∀ p ∈ Item.grown rows, p.1 = 0 := fun p hp => Nat.le_zero.mp (le p hp)
  rw [listing, ofListing, Item.listingAll_map _ top, Item.flatMap_listing_grown h.step]

/-- The rows of an outline go down level by level. -/
theorem stepwise_listing (o : Outline) : Item.Stepwise o.listing := by
  have none : ∀ row ∈ ([] : List (String × String × Nat)).head?, row.2.2 ≤ 0 := nofun
  have first := Item.head?_listingAll_append o.items none
  have step := Item.isChain_listingAll o.items none .nil
  rw [List.append_nil] at first step
  exact ⟨fun row hrow => Nat.le_zero.mp (first row hrow), step⟩

theorem labelled_iff_listing {o : Outline} : o.Labelled ↔ ∀ row ∈ o.listing, row.1 ≠ "" := by
  rw [← unlabelled?_eq_none]
  exact Item.unlabelledAmong?_eq_none_iff [] 0 0 o.items

end Outline

namespace Tree

/-- Two trees have the same rows exactly when they hold the same outline.  And rows with labels are
those of a tree exactly when the first, if there is one, is at the top and no other is more than
one level below the row before it. -/
theorem listing_faithful :
    (∀ {o o' : Outline} {t t' : Tree}, ofOutline o = .ok t → ofOutline o' = .ok t' →
      (t.listing = t'.listing ↔ t.toOutline = t'.toOutline)) ∧
    ∀ rows : List (String × String × Nat), (∀ row ∈ rows, row.1 ≠ "") →
      ((∃ o t, ofOutline o = .ok t ∧ t.listing = rows) ↔ Item.Stepwise rows) := by
  refine ⟨fun {o o' t t'} h h' => ?_, fun rows labels => ⟨?_, fun stepwise => ?_⟩⟩
  · obtain rfl := ofOutline_eq_ok h
    obtain rfl := ofOutline_eq_ok h'
    rw [listing_layOut, listing_layOut, toOutline_layOut, toOutline_layOut]
    refine ⟨fun same => ?_, fun same => same ▸ rfl⟩
    rw [← o.ofListing_listing, same, o'.ofListing_listing]
  · rintro ⟨o, t, h, rfl⟩
    rw [ofOutline_eq_ok h, listing_layOut]
    exact o.stepwise_listing
  · have same := Outline.listing_ofListing stepwise
    have labelled : (Outline.ofListing rows).Labelled :=
      Outline.labelled_iff_listing.mpr (same.symm ▸ labels)
    exact ⟨_, _, ofOutline_of_labelled labelled, (listing_layOut _).trans same⟩

/-- Three items that look alike, the last of them at the top. -/
def twoAtTop : Outline := ⟨[⟨"A", "", [⟨"A", "", []⟩]⟩, ⟨"A", "", []⟩]⟩

/-- Three items that look alike, the last two below the first. -/
def oneAtTop : Outline := ⟨[⟨"A", "", [⟨"A", "", []⟩, ⟨"A", "", []⟩]⟩]⟩

/-- Their trees are told apart by the depths alone.  No tree leaves out a level. -/
theorem listing_faithful_alike :
    ofOutline twoAtTop = .ok (layOut twoAtTop) ∧ ofOutline oneAtTop = .ok (layOut oneAtTop) ∧
      (layOut twoAtTop).toOutline ≠ (layOut oneAtTop).toOutline ∧
      (∃ o t, ofOutline o = .ok t ∧ t.listing = [("A", "", 0), ("A", "", 1), ("A", "", 1)]) ∧
      ¬ ∃ o t, ofOutline o = .ok t ∧ t.listing = [("A", "", 0), ("A", "", 2)] := by
  have two : ofOutline twoAtTop = .ok (layOut twoAtTop) := rfl
  have one : ofOutline oneAtTop = .ok (layOut oneAtTop) := rfl
  obtain ⟨trees, rows⟩ := listing_faithful
  refine ⟨two, one, fun same => ?_, ?_, fun listed => ?_⟩
  · exact absurd ((trees two one).mpr same) (by decide)
  · exact (rows _ (by decide)).mpr ⟨by decide, by decide⟩
  · exact absurd ((rows _ (by decide)).mp listed).step (by decide)

end Tree

end Sidebar
