import Sidebar.Command.Run

/-!
# Command — sessions that write no output too early

A session is a row of steps that may fail and that write.  What it does is the same behind whatever
has been written.  Steps that write messages only may stand in front of any others: as long as no
piece of output has been written, a failure leaves none behind.

* `Session.Yields`: a session has a result, and writes something.
* `Session.Quiet`: it writes messages only.
* `Session.Careful`: it fails, if at all, before any output.
* `Quiet.bind_careful`: behind quiet steps, careful ones are still careful.
-/

namespace Sidebar

/-! ### Writes without output -/

/-- No piece of output is among some writes. -/
def Write.Mute (ws : List Write) : Prop := ∀ text, .output text ∉ ws

namespace Write.Mute

theorem nil : Mute [] := fun _ => List.not_mem_nil

theorem message (msg : Message) : Mute [.message msg] :=
  fun _ h => nomatch List.mem_singleton.mp h

theorem append {ws ws' : List Write} (h : Mute ws) (h' : Mute ws') : Mute (ws ++ ws') :=
  fun text => List.not_mem_append (h text) (h' text)

end Write.Mute

/-! ### Sessions -/

namespace Session

open Write (Mute)

variable {α β : Type} {x : Session Id α} {f : α → Session Id β} {a : α} {e : Failure}
  {more : List Write}

/-- A session has a result, and writes more behind whatever has been written. -/
def Yields (x : Session Id α) (r : Except Failure α) (more : List Write) : Prop :=
  ∀ before, (x.run.run before).run = (r, before ++ more)

theorem yields_pure (a : α) : (pure a : Session Id α).Yields (.ok a) [] := fun before => by
  rw [List.append_nil]
  rfl

theorem yields_throw (e : Failure) : (throw e : Session Id α).Yields (.error e) [] :=
  fun before => by
    rw [List.append_nil]
    rfl

theorem yields_ask (q : Id α) : (liftM q : Session Id α).Yields (.ok q.run) [] := fun before => by
  rw [List.append_nil]
  rfl

theorem yields_write (w : Write) : (write w : Session Id Unit).Yields (.ok ()) [w] := fun _ => rfl

theorem Yields.bind {r : Except Failure β} {rest : List Write} (hx : x.Yields (.ok a) more)
    (hf : (f a).Yields r rest) : (x >>= f).Yields r (more ++ rest) := fun before => by
  have run : ((x >>= f).run.run before).run = ((f a).run.run (before ++ more)).run := by
    simp only [ExceptT.run_bind, StateT.run_bind, Id.run_bind, hx before]
  rw [run, hf, List.append_assoc]

theorem Yields.bind_error (hx : x.Yields (.error e) more) : (x >>= f).Yields (.error e) more :=
  fun before => by
    simp only [ExceptT.run_bind, StateT.run_bind, Id.run_bind, hx before]
    rfl

/-- A session writes messages only; its value has one property, its failure another. -/
inductive Quiet (x : Session Id α) (P : α → Prop) (E : Failure → Prop) : Prop where
  | ok {a : α} {more : List Write} (yields : x.Yields (.ok a) more) (mute : Mute more) (ha : P a)
  | error {e : Failure} {more : List Write} (yields : x.Yields (.error e) more) (mute : Mute more)
      (he : E e)

/-- A session ends well, and something holds, or it fails before any output. -/
inductive Careful (x : Session Id α) (p : Prop) (E : Failure → Prop) : Prop where
  | ok {a : α} {more : List Write} (yields : x.Yields (.ok a) more) (hp : p)
  | error {e : Failure} {more : List Write} (yields : x.Yields (.error e) more) (mute : Mute more)
      (he : E e)

/-- A session ends well. -/
def Sure (x : Session Id α) : Prop := ∃ a more, x.Yields (.ok a) more

variable {p : Prop} {P : α → Prop} {Q : β → Prop} {E : Failure → Prop}

theorem quiet_pure (ha : P a) : Quiet (pure a) P E := .ok (yields_pure a) .nil ha

theorem quiet_throw (he : E e) : Quiet (throw e) P E := .error (yields_throw e) .nil he

theorem quiet_ask (q : Id α) : Quiet (liftM q) (q.run = ·) E := .ok (yields_ask q) .nil rfl

theorem quiet_liftExcept {r : Except Failure α} (hok : ∀ a, r = .ok a → P a)
    (herr : ∀ e, r = .error e → E e) : Quiet (liftExcept r) P E := by
  cases r with
  | ok a => exact quiet_pure (hok a rfl)
  | error e => exact quiet_throw (herr e rfl)

theorem quiet_say (tone : Tone) (text : String) : Quiet (say tone text) (fun _ => True) E :=
  .ok (yields_write _) (.message _) trivial

theorem Quiet.bind (hx : Quiet x P E) (hf : ∀ a, P a → Quiet (f a) Q E) : Quiet (x >>= f) Q E := by
  cases hx with
  | error yields mute he => exact .error yields.bind_error mute he
  | ok yields mute ha =>
      cases hf _ ha with
      | ok yields' mute' hb => exact .ok (yields.bind yields') (mute.append mute') hb
      | error yields' mute' he => exact .error (yields.bind yields') (mute.append mute') he

/-- Behind messages, a careful session is still careful. -/
theorem Quiet.bind_careful (hx : Quiet x P E) (hf : ∀ a, P a → Careful (f a) p E) :
    Careful (x >>= f) p E := by
  cases hx with
  | error yields mute he => exact .error yields.bind_error mute he
  | ok yields mute ha =>
      cases hf _ ha with
      | ok yields' hp => exact .ok (yields.bind yields') hp
      | error yields' mute' he => exact .error (yields.bind yields') (mute.append mute') he

theorem careful_throw (he : E e) : Careful (throw e : Session Id α) p E :=
  .error (yields_throw e) .nil he

theorem sure_say (tone : Tone) (text : String) : Sure (say tone text : Session Id Unit) :=
  ⟨(), _, yields_write _⟩

theorem sure_print (text : String) : Sure (print text : Session Id Unit) := ⟨(), _, yields_write _⟩

theorem Sure.bind (hx : Sure x) (hf : ∀ a, Sure (f a)) : Sure (x >>= f) := by
  obtain ⟨a, more, yields⟩ := hx
  obtain ⟨b, rest, yields'⟩ := hf a
  exact ⟨b, _, yields.bind yields'⟩

theorem Sure.careful (hx : Sure x) (hp : p) : Careful x p E := by
  obtain ⟨a, more, yields⟩ := hx
  exact .ok yields hp

end Session

end Sidebar
