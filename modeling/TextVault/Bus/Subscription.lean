import TextVault.Bus.Channel
import TextVault.Bus.Event

/-
  Subscriptions to the events of the vault.

  Problem: a subscriber wants the next event of its kind, now or when there is one, and has to know
  when events were lost on the way.

  Program: `Subscription.tryReceive` reads on until it has an event of its kind or finds nothing.
  `Subscription.poll` is one look of a subscriber that waits: it ends with an event, or in the knowledge
  whether there can ever be another one. Both count the events lost, of whatever kind.

  Assumed of what runs a subscriber that waits: one look goes on to its end, however many events of other
  kinds it passes, and nothing is published meanwhile.

  Spec: a place only moves forward, so both come to an end.
-/
namespace TextVault

/-- The channel that the parts of the vault share. -/
abbrev Bus := Channel Event

/-- A subscriber to one kind of event, or to all. -/
structure Subscription where
  kind : Option EventKind
  /-- How many events were published before the one that is read next. -/
  place : Nat
  /-- How many events were lost. -/
  missed : Nat := 0
  deriving DecidableEq, Repr

/-- The end of one look of a subscriber that waits. -/
inductive Polled where
  | event (e : Event)
  | pending
  /-- The bus is gone and holds nothing more. -/
  | closed
  deriving DecidableEq, Repr

namespace Subscription

/-- A new subscriber sees the events published from now on. -/
def start (bus : Bus) (kind : Option EventKind) : Subscription := { kind, place := bus.published }

/-- Whether an event is of the subscriber's kind; who named no kind takes all of them. -/
def accepts (s : Subscription) (e : Event) : Bool :=
  match s.kind with
  | none => true
  | some kind => e.kind == kind

/-- Moves past one event. -/
def pass (s : Subscription) : Subscription := { s with place := s.place + 1 }

/-- Moves past lost events. -/
def skip (s : Subscription) (count : Nat) : Subscription :=
  { s with place := s.place + count, missed := s.missed + count }

/-- Reading on moves the place by one, lost events move it past all of them; what is left to read therefore
shrinks. -/
@[simp] theorem place_pass (s : Subscription) : s.pass.place = s.place + 1 := rfl

@[simp] theorem place_skip (s : Subscription) (count : Nat) :
    (s.skip count).place = s.place + count := rfl

-- What is found at the place is named for the sake of the proofs that reading comes to an end.
set_option linter.unusedVariables false

/-- The next event of the subscriber's kind that is still kept. -/
def tryReceive (bus : Bus) (s : Subscription) : Option Event × Subscription :=
  match hfound : bus.next s.place with
  | .item e => if s.accepts e then (some e, s.pass) else tryReceive bus s.pass
  | .lost count => tryReceive bus (s.skip count)
  | .nothing => (none, s)
termination_by bus.published - s.place
decreasing_by
  · -- Each turn moves the place on, which never goes past the end of the channel.
    have := Channel.place_lt_of_next_item hfound
    rw [place_pass]
    omega
  · have := Channel.add_of_next_lost hfound
    have : bus.dropped ≤ bus.published := Nat.le_add_right ..
    rw [place_skip]
    omega

/-- One look for the next event of the subscriber's kind; `isOpen` tells whether anybody can still
publish. -/
def poll (bus : Bus) (isOpen : Bool) (s : Subscription) : Polled × Subscription :=
  match hfound : bus.next s.place with
  | .item e => if s.accepts e then (.event e, s.pass) else poll bus isOpen s.pass
  | .lost count => poll bus isOpen (s.skip count)
  | .nothing => (if isOpen then .pending else .closed, s)
termination_by bus.published - s.place
decreasing_by
  · have := Channel.place_lt_of_next_item hfound
    rw [place_pass]
    omega
  · have := Channel.add_of_next_lost hfound
    have : bus.dropped ≤ bus.published := Nat.le_add_right ..
    rw [place_skip]
    omega

/-- An event received moves the place on. -/
theorem place_lt_of_tryReceive {bus : Bus} {s s' : Subscription} {e : Event}
    (h : s.tryReceive bus = (some e, s')) : s.place < s'.place ∧ s'.place ≤ bus.published := by
  fun_induction tryReceive bus s with
  | case1 s e' hnext _ =>
    cases h
    have := Channel.place_lt_of_next_item hnext
    rw [place_pass]
    omega
  | case2 s e' hnext _ ih => have := ih h; rw [place_pass] at this; omega
  | case3 s count hnext ih => have := ih h; rw [place_skip] at this; omega
  | case4 => cases h

/-- All events of the subscriber's kind that are still kept, in order. -/
def drain (bus : Bus) (s : Subscription) : List Event × Subscription :=
  match hfound : s.tryReceive bus with
  | (none, s') => ([], s')
  | (some e, s') =>
    let (events, last) := drain bus s'
    (e :: events, last)
termination_by bus.published - s.place
decreasing_by
  have := place_lt_of_tryReceive hfound
  omega

end Subscription

end TextVault
