import Sidebar.Render.Drawing

/-!
# Render — walking a tree

A renderer does not make all its entries before it hands over the first.  It goes through the nodes
and hands each entry to the sink as it comes to it, so a sink that fails ends the walk where it
stands.  A sink cannot tell a walk from the delivery of all its entries.

* `Call`: what a renderer can be asked for.
* `Renderer.feed_eq`, `Renderer.feedTree_eq`: a walk delivers the entries of a node or a tree.
* `Call.feed_eq`: a call delivers its entries.
* `Call.record_none`: a recorder keeps the entries of a call, and its end.
-/

namespace Sidebar

variable {m : Type → Type} [Monad m]

namespace Renderer

/-- Goes through a node and what is below it, and hands over what is drawn. -/
def walk (r : Renderer) (t : Tree) (topIsLast : Bool) (sink : Sink m) (n : Nat) : m Unit :=
  match t.cell? n with
  | none   => pure ()
  | some c => (Cursor.mk n c.stop).rest.forM fun k =>
    match r.entry? t c.depth topIsLast k with
    | none   => pure ()
    | some e => sink.entry e

/-- Walks through a node as a tree of its own, and tells the end. -/
def feed (r : Renderer) (t : Tree) (sink : Sink m) (n : Nat) : m Unit := do
  r.walk t true sink n
  sink.finish

/-- Walks through the top-level nodes of a tree one after the other, and tells the end. -/
def feedTree (r : Renderer) (t : Tree) (sink : Sink m) : m Unit := do
  t.roots.forM fun n => r.walk t (t.nextSibling? n).isNone sink n
  sink.finish

end Renderer

/-! ### Calls -/

/-- What a renderer is asked for: a whole tree, or a node of it and what is below that. -/
inductive Call where
  | tree (r : Renderer) (t : Tree)
  | node (r : Renderer) (t : Tree) (n : Nat)

namespace Call

/-- Hands a sink what a call asks for. -/
def feed (sink : Sink m) : Call → m Unit
  | tree r t   => r.feedTree t sink
  | node r t n => r.feed t sink n

/-- The entries of a call. -/
def entries : Call → List Entry
  | tree r t   => r.treeEntries t
  | node r t n => r.entries t n

/-- Hands a recorder what a call asks for: whether it took everything, and what it has kept. -/
def record (refuse : Option Nat) (c : Call) : Bool × Record :=
  match (c.feed (Sink.recorder refuse)).run.run ⟨[], 0⟩ with
  | (.ok _, r)    => (true, r)
  | (.error _, r) => (false, r)

end Call

/-! ### Deliveries -/

variable [LawfulMonad m]

theorem Sink.deliver_nil (sink : Sink m) : sink.deliver [] = sink.finish := by
  unfold deliver
  rw [List.forM_eq_forM, List.forM_nil, pure_bind]

theorem Sink.deliver_cons (sink : Sink m) (e : Entry) (es : List Entry) :
    sink.deliver (e :: es) = (sink.entry e >>= fun _ => sink.deliver es) := by
  unfold deliver
  rw [List.forM_eq_forM, List.forM_cons, bind_assoc]

namespace Renderer

theorem forM_of_filterMap (sink : Sink m) (drawn : Nat → Option Entry) (ns : List Nat) :
    (ns.forM fun n =>
      match drawn n with
      | none   => pure ()
      | some e => sink.entry e) = (ns.filterMap drawn).forM sink.entry := by
  induction ns with
  | nil => rfl
  | cons n ns ih =>
      simp only [List.forM_eq_forM, List.forM_cons] at *
      cases h : drawn n with
      | none => rw [List.filterMap_cons_none h, pure_bind, ih]
      | some e => rw [List.filterMap_cons_some h, List.forM_cons, ih]

/-- A walk hands over the entries of its node. -/
theorem walk_eq (r : Renderer) (t : Tree) (topIsLast : Bool) (sink : Sink m) (n : Nat) :
    r.walk t topIsLast sink n = (r.subtreeEntries t topIsLast n).forM sink.entry := by
  rw [walk, subtreeEntries]
  cases t.cell? n with
  | none => rfl
  | some c => exact forM_of_filterMap sink _ _

theorem feed_eq (r : Renderer) (t : Tree) (sink : Sink m) (n : Nat) :
    r.feed t sink n = sink.deliver (r.entries t n) := by
  rw [feed, walk_eq]
  rfl

theorem feedTree_eq (r : Renderer) (t : Tree) (sink : Sink m) :
    r.feedTree t sink = sink.deliver (r.treeEntries t) := by
  have walks : (t.roots.forM fun n => r.walk t (t.nextSibling? n).isNone sink n) =
      (r.treeEntries t).forM sink.entry := by
    rw [treeEntries]
    induction t.roots with
    | nil => rfl
    | cons n ns ih =>
        simp only [List.forM_eq_forM] at *
        rw [List.forM_cons, List.flatMap_cons, List.forM_append, ih, walk_eq, List.forM_eq_forM]
  rw [feedTree, walks]
  rfl

end Renderer

theorem Call.feed_eq (c : Call) (sink : Sink m) : c.feed sink = sink.deliver c.entries := by
  cases c with
  | tree r t => exact r.feedTree_eq t sink
  | node r t n => exact r.feed_eq t sink n

/-! ### Records -/

/-- A recorder that refuses nothing keeps all it is handed, in its order, and the end. -/
theorem Sink.run_recorder (es : List Entry) (r : Record) :
    ((recorder none).deliver es).run.run r = (.ok (), ⟨r.entries ++ es, r.finished + 1⟩) := by
  induction es generalizing r with
  | nil => rw [deliver_nil, List.append_nil]; rfl
  | cons e es ih =>
      have step : ((recorder none).deliver (e :: es)).run.run r =
          ((recorder none).deliver es).run.run ⟨r.entries ++ [e], r.finished⟩ := by
        rw [deliver_cons]
        rfl
      rw [step, ih, List.append_assoc, List.singleton_append]

/-- The record of a call is its entries, with one end. -/
theorem Call.record_none (c : Call) : c.record none = (true, ⟨c.entries, 1⟩) := by
  rw [record, c.feed_eq, Sink.run_recorder]
  rfl

end Sidebar
