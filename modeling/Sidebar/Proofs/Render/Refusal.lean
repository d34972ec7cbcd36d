import Sidebar.Proofs.Render.Reuse
import Sidebar.Render.Walk

/-!
# Render — a sink that fails

A sink may fail at an entry.  What it was handed before that is what any other sink would have been
handed, the failure is the result of the whole call, and nothing more is handed over: neither the
entries that are left, in this subtree and in those of the later top-level nodes, nor the end.

* `Sink.watched`: a sink with a list of what it has been handed.
* `Sink.FailsAt`: a sink fails at the entry with a given number, and not before.
* `Call.Ends`: how a call ends, and what the sink has been handed by then.
* `Call.ends_of_failsAt`: a sink that fails at an entry is handed the entries up to that one.
-/

namespace Sidebar

namespace Sink

variable {ε σ : Type}

/-! ### Sinks under watch -/

/-- A step of a sink, with the mark that it is handed for it. -/
def watch (m : Mark) (x : ExceptT ε (StateM σ) Unit) : ExceptT ε (StateM (σ × List Mark)) Unit :=
  ExceptT.mk fun s => ((x.run.run s.1).1, (x.run.run s.1).2, s.2 ++ [m])

/-- The sink, with a list of the marks that it has been handed.  A mark at which it fails is the
last one. -/
def watched (sink : Sink (ExceptT ε (StateM σ))) : Sink (ExceptT ε (StateM (σ × List Mark))) where
  entry e := watch (.entry e) (sink.entry e)
  finish := watch .finish sink.finish

/-- Handed some entries from a state on, the sink fails at the one with the number `n`, if there is
one, and takes those before it. -/
inductive FailsAt (sink : Sink (ExceptT ε (StateM σ))) : σ → Nat → List Entry → Prop where
  | done {s : σ} {n : Nat} : FailsAt sink s n []
  | fails {s : σ} {e : Entry} {es : List Entry} {f : ε}
      (h : ((sink.entry e).run.run s).1 = .error f) : FailsAt sink s 0 (e :: es)
  | takes {s : σ} {n : Nat} {e : Entry} {es : List Entry}
      (h : ((sink.entry e).run.run s).1 = .ok ())
      (rest : FailsAt sink (sink.after s (.entry e)) n es) : FailsAt sink s (n + 1) (e :: es)

variable {sink : Sink (ExceptT ε (StateM σ))} {s : σ} {n : Nat} {es : List Entry}

theorem foldl_after_watched (sink : Sink (ExceptT ε (StateM σ))) (s : σ) (before ms : List Mark) :
    ms.foldl sink.watched.after (s, before) = (ms.foldl sink.after s, before ++ ms) := by
  induction ms generalizing s before with
  | nil => rw [List.append_nil]; rfl
  | cons m ms ih =>
      have step : sink.watched.after (s, before) m = (sink.after s m, before ++ [m]) := by
        cases m <;> rfl
      rw [List.foldl_cons, step, ih, List.append_assoc]
      rfl

theorem Steady.watched (h : sink.Steady) : sink.watched.Steady where
  entry e s := h.entry e s.1
  finish s := h.finish s.1

theorem FailsAt.watched (h : sink.FailsAt s n es) (before : List Mark) :
    sink.watched.FailsAt (s, before) n es := by
  induction h generalizing before with
  | done => exact .done
  | fails h => exact .fails h
  | takes h _ ih => exact .takes h (ih _)

/-- A sink that takes everything would fail only beyond the entries. -/
theorem Steady.failsAt (h : sink.Steady) (s : σ) (es : List Entry) :
    sink.FailsAt s es.length es := by
  induction es generalizing s with
  | nil => exact .done
  | cons e es ih => exact .takes (h.entry e s) (ih _)

theorem recorder_entry (refuse : Option Nat) (e : Entry) (r : Record) :
    ((recorder refuse).entry e).run.run r =
      if refuse = some r.entries.length then (.error (), r)
      else (.ok (), { r with entries := r.entries ++ [e] }) := by
  have run : ((recorder refuse).entry e).run.run r =
      (if refuse = some r.entries.length then
        (do throw (); set { r with entries := r.entries ++ [e] } : ExceptT Unit (StateM Record) Unit)
      else set { r with entries := r.entries ++ [e] }).run.run r := rfl
  rw [run]
  split <;> rfl

/-- The recorder that refuses an entry fails at that one. -/
theorem recorder_failsAt (r : Record) (n : Nat) (es : List Entry) :
    (recorder (some (r.entries.length + n))).FailsAt r n es := by
  induction es generalizing n r with
  | nil => exact .done
  | cons e es ih =>
      cases n with
      | zero => exact .fails (f := ()) (by rw [recorder_entry, Nat.add_zero, if_pos rfl])
      | succ n =>
          have other : some (r.entries.length + (n + 1)) ≠ some r.entries.length := by simp
          have next := ih { r with entries := r.entries ++ [e] } n
          rw [List.length_append, List.length_singleton, Nat.add_assoc, Nat.add_comm 1] at next
          refine .takes (by rw [recorder_entry, if_neg other]) ?_
          rw [after, recorder_entry, if_neg other]
          exact next

/-! ### Deliveries -/

theorem run_bind_of_error {x y : ExceptT ε (StateM σ) Unit} {s : σ} {f : ε}
    (h : (x.run.run s).1 = .error f) :
    (x >>= fun _ => y).run.run s = (.error f, (x.run.run s).2) := by
  rcases e : x.run.run s with ⟨r, s'⟩
  rw [e] at h
  obtain rfl : r = .error f := h
  rw [ExceptT.run_bind, StateT.run_bind, e]
  rfl

/-- The delivery ends with the entry at which the sink fails. -/
theorem FailsAt.run_of_getElem? {e : Entry} (h : sink.FailsAt s n es) (he : es[n]? = some e) :
    ∃ f, ((sink.entry e).run.run (((es.take n).map Mark.entry).foldl sink.after s)).1 = .error f ∧
      (sink.deliver es).run.run s =
        (sink.entry e).run.run (((es.take n).map Mark.entry).foldl sink.after s) := by
  induction h with
  | done => exact nomatch he
  | @fails s e' es f h =>
      obtain rfl := Option.some.inj he
      refine ⟨f, h, ?_⟩
      rw [deliver_cons, run_bind_of_error h]
      exact Prod.ext h.symm rfl
  | takes h _ ih =>
      obtain ⟨f, fails, run⟩ := ih he
      refine ⟨f, fails, ?_⟩
      rw [deliver_cons, run_bind_of_ok h]
      exact run

/-- Where the number is beyond the entries, all of them are taken, and the end decides. -/
theorem FailsAt.run_of_le (h : sink.FailsAt s n es) (le : es.length ≤ n) :
    (sink.deliver es).run.run s = sink.finish.run.run ((es.map Mark.entry).foldl sink.after s) := by
  induction h with
  | done => rw [deliver_nil]; rfl
  | fails => exact absurd le (Nat.not_succ_le_zero _)
  | takes h _ ih =>
      rw [deliver_cons, run_bind_of_ok h]
      exact ih (Nat.le_of_succ_le_succ le)

end Sink

/-! ### Calls -/

namespace Call

variable {ε σ : Type}

/-- A call ends with a result, and until then the sink has been handed some marks and nothing
else. -/
structure Ends (c : Call) (sink : Sink (ExceptT ε (StateM σ))) (s : σ) (result : Except ε Unit)
    (ms : List Mark) : Prop where
  run : (c.feed sink).run.run s = (result, ms.foldl sink.after s)
  handed : (c.feed sink.watched).run.run (s, []) = (result, ms.foldl sink.after s, ms)

variable {sink : Sink (ExceptT ε (StateM σ))} {s : σ} {n : Nat} {c : Call}

/-- A sink that fails at an entry is handed the entries up to that one. -/
theorem ends_of_getElem? {e : Entry} (h : sink.FailsAt s n c.entries) (he : c.entries[n]? = some e) :
    ∃ f, c.Ends sink s (.error f) ((c.entries.take n).map .entry ++ [.entry e]) := by
  obtain ⟨f, fails, run⟩ := h.run_of_getElem? he
  obtain ⟨-, -, handed⟩ := (h.watched []).run_of_getElem? he
  refine ⟨f, ?_, ?_⟩
  · rw [feed_eq, run, List.foldl_concat]
    exact Prod.ext fails rfl
  · rw [feed_eq, handed, Sink.foldl_after_watched, List.foldl_concat]
    exact Prod.ext fails rfl

/-- A sink that takes all entries is handed them, and then the end. -/
theorem ends_of_le (h : sink.FailsAt s n c.entries) (le : c.entries.length ≤ n)
    (finish : ∀ s, (sink.finish.run.run s).1 = .ok ()) :
    c.Ends sink s (.ok ()) (Mark.delivery c.entries) := by
  refine ⟨?_, ?_⟩
  · rw [feed_eq, h.run_of_le le, Mark.delivery, List.foldl_concat]
    exact Prod.ext (finish _) rfl
  · rw [feed_eq, (h.watched []).run_of_le le, Sink.foldl_after_watched, Mark.delivery,
      List.foldl_concat]
    exact Prod.ext (finish _) rfl

/-- Whatever a call asks for, all sinks that do not fail are handed the same entries and then the
end.  A sink that fails at one of these entries is handed the ones before it and that one, and the
call fails; where the number is beyond the entries, the call is as for a sink that does not fail. -/
theorem ends_of_failsAt (c : Call) :
    (∀ {ε σ : Type} (sink : Sink (ExceptT ε (StateM σ))) (s : σ), sink.Steady →
      c.Ends sink s (.ok ()) (c.entries.map .entry ++ [.finish])) ∧
    ∀ {ε σ : Type} (sink : Sink (ExceptT ε (StateM σ))) (s : σ) (n : Nat),
      sink.FailsAt s n c.entries →
      (n < c.entries.length → ∃ f e, c.entries[n]? = some e ∧
        c.Ends sink s (.error f) ((c.entries.take n).map .entry ++ [.entry e])) ∧
      (c.entries.length ≤ n → (∀ s, (sink.finish.run.run s).1 = .ok ()) →
        c.Ends sink s (.ok ()) (c.entries.map .entry ++ [.finish])) := by
  refine ⟨fun sink s steady => ?_, fun sink s n h => ⟨fun lt => ?_, ends_of_le h⟩⟩
  · exact ends_of_le (steady.failsAt s c.entries) (Nat.le_refl _) steady.finish
  · have he := List.getElem?_eq_getElem lt
    obtain ⟨f, ends⟩ := ends_of_getElem? h he
    exact ⟨f, _, he, ends⟩

/-- A call with four entries, the last of them on a branch of its own. -/
def branched : Call := tree .standard (Tree.layOut Tree.branched)

/-- The third of the entries is refused, so the last one is not handed over.  A recorder that would
refuse a fifth one takes all of them. -/
theorem ends_of_failsAt_branched :
    (Sink.recorder (some 2)).FailsAt ⟨[], 0⟩ 2 branched.entries ∧
      branched.Ends (Sink.recorder (some 2)) ⟨[], 0⟩ (.error ())
        [.entry ⟨"A", "", 0, false, false⟩, .entry ⟨"B", "b", 1, false, true⟩,
          .entry ⟨"C", "c", 2, true, true⟩] ∧
      branched.Ends (Sink.recorder (some 4)) ⟨[], 0⟩ (.ok ())
        [.entry ⟨"A", "", 0, false, false⟩, .entry ⟨"B", "b", 1, false, true⟩,
          .entry ⟨"C", "c", 2, true, true⟩, .entry ⟨"D", "d", 0, true, true⟩, .finish] := by
  have third := Sink.recorder_failsAt ⟨[], 0⟩ 2 branched.entries
  have fifth := Sink.recorder_failsAt ⟨[], 0⟩ 4 branched.entries
  obtain ⟨f, e, he, ends⟩ := ((ends_of_failsAt branched).2 _ _ 2 third).1 (by decide)
  obtain rfl : e = ⟨"C", "c", 2, true, true⟩ := Option.some.inj (he.symm.trans rfl)
  exact ⟨third, ends, ((ends_of_failsAt branched).2 _ _ 4 fifth).2 (by decide) fun _ => rfl⟩

end Call

end Sidebar
