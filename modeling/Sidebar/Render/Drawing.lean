import Sidebar.Render.Entry

/-!
# Render — sinks and drawings

A sink takes entries one by one and is told when they are over.  It acts in any monad; one that
fails ends the delivery at once.  A drawing is a sink that writes text: a state, and for each
mark the next state and the text written.  Runs of a drawing can follow each other.

* `Drawing.run_append`: a run goes on where the one before it stopped.
-/

namespace Sidebar

/-! ### Sinks -/

/-- Where entries go. -/
structure Sink (m : Type → Type) where
  entry : Entry → m Unit
  finish : m Unit

/-- Hands over all entries, and then the end. -/
def Sink.deliver {m : Type → Type} [Monad m] (sink : Sink m) (es : List Entry) : m Unit := do
  es.forM sink.entry
  sink.finish

/-- What a sink has been handed. -/
structure Record where
  entries : List Entry
  finished : Nat

/-- A sink that keeps what it is handed, and refuses one entry, given by its number. -/
def Sink.recorder (refuse : Option Nat) : Sink (ExceptT Unit (StateM Record)) where
  entry e := do
    let r ← get
    if refuse = some r.entries.length then throw ()
    set { r with entries := r.entries ++ [e] }
  finish := modify fun r => { r with finished := r.finished + 1 }

/-! ### Drawings -/

/-- A sink that writes text. -/
structure Drawing (σ : Type) where
  start : σ
  entry : σ → Entry → σ × String
  finish : σ → σ × String

/-- What a sink can be handed. -/
inductive Mark where
  | entry (e : Entry)
  | finish
deriving DecidableEq, Repr

/-- The marks of one delivery. -/
def Mark.delivery (es : List Entry) : List Mark :=
  es.map .entry ++ [.finish]

namespace Drawing

variable {σ : Type}

/-- The state after a mark, and the text written for it. -/
def mark (d : Drawing σ) (s : σ) : Mark → σ × String
  | .entry e => d.entry s e
  | .finish  => d.finish s

/-- The state after some marks, and the text written for each. -/
def run (d : Drawing σ) : σ → List Mark → σ × List String
  | s, []      => (s, [])
  | s, m :: ms =>
    let (s', out) := d.mark s m
    let (s'', outs) := d.run s' ms
    (s'', out :: outs)

theorem run_cons (d : Drawing σ) (s : σ) (m : Mark) (ms : List Mark) :
    d.run s (m :: ms) =
      ((d.run (d.mark s m).1 ms).1, (d.mark s m).2 :: (d.run (d.mark s m).1 ms).2) := rfl

theorem run_append (d : Drawing σ) (s : σ) (ms ns : List Mark) :
    d.run s (ms ++ ns) =
      ((d.run (d.run s ms).1 ns).1, (d.run s ms).2 ++ (d.run (d.run s ms).1 ns).2) := by
  induction ms generalizing s with
  | nil => simp [run]
  | cons m ms ih => simp [run, ih]

/-- The drawing as a sink, with its state and the text written so far. -/
def sink (d : Drawing σ) : Sink (StateM (σ × String)) where
  entry e := modify fun (s, text) =>
    let (s', out) := d.entry s e
    (s', text ++ out)
  finish := modify fun (s, text) =>
    let (s', out) := d.finish s
    (s', text ++ out)

/-- The text of one delivery on a fresh drawing. -/
def draw (d : Drawing σ) (es : List Entry) : String :=
  String.join (d.run d.start (Mark.delivery es)).2

end Drawing

end Sidebar
