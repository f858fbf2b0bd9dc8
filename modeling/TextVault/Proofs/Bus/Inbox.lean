import TextVault.Proofs.Bus.Feed

/-
  A subscriber seen by itself.

  Problem: subscribers share one channel, and each keeps a place in it; what one of them is given must not
  hang on what the others do.

  Program: an `Inbox` has no channel and no place. All it notices is that an event arrives and that it is
  asked for the next one; it knows the events it has not handed on, of which it keeps at most as many as the
  capacity.

  Spec: a subscriber does as an inbox with the same unread events does, at one receive (`Mirrors.receive`)
  and through any notices (`Mirrors.hears_eq`).
-/
namespace TextVault

/-- A subscriber without its channel. -/
structure Inbox where
  kind : Option EventKind
  unread : List Event := []
  missed : Nat := 0

namespace Inbox

variable (capacity : Nat)

/-- The next event of the kind, if there is one, among the newest that are not read. -/
def receive (b : Inbox) : Option Event × Inbox :=
  let lost := b.unread.length - capacity
  let kept := b.unread.drop lost
  (kept.find? fun e => e.isOf b.kind,
    { b with unread := (kept.dropWhile fun e => !e.isOf b.kind).tail, missed := b.missed + lost })

/-- What an inbox gives and has missed, each time it is asked. -/
def run (b : Inbox) : List Notice → List (Option Event × Nat)
  | [] => []
  | .arrival e :: notices => run { b with unread := b.unread ++ [e] } notices
  | .receive :: notices =>
    ((b.receive capacity).1, (b.receive capacity).2.missed) :: run (b.receive capacity).2 notices

end Inbox

namespace Subscription

/-- A subscriber and an inbox of its kind that have the same to read and have missed the same. -/
structure Mirrors (bus : Bus) (s : Subscription) (b : Inbox) : Prop where
  awaits : s.Awaits bus b.unread
  kind : s.kind = b.kind
  missed : s.missed = b.missed

namespace Mirrors

variable {bus : Bus} {s : Subscription} {b : Inbox}

/-- An event published is one more in front of the subscriber, on the bus and in the mirror alike. -/
theorem publish (h : s.Mirrors bus b) (e : Event) :
    s.Mirrors (bus.publish e) { b with unread := b.unread ++ [e] } :=
  ⟨h.awaits.publish e, h.kind, h.missed⟩

/-- **A subscriber does as its inbox does.** -/
theorem receive (h : s.Mirrors bus b) :
    (s.tryReceive bus).1 = (b.receive bus.capacity).1 ∧
      (s.tryReceive bus).2.Mirrors bus (b.receive bus.capacity).2 := by
  obtain ⟨lost, rest, hreads⟩ := h.awaits.exists_reads
  have haccepts : s.accepts = (Event.isOf b.kind ·) := by rw [accepts_eq, h.kind]
  have hevent := hreads.event_eq
  have hrest := hreads.rest_eq
  rw [haccepts] at hevent hrest
  refine ⟨hevent, ?_, (kind_tryReceive bus s).trans h.kind, ?_⟩
  · have hunread : (b.receive bus.capacity).2.unread = rest := hrest.symm
    rw [hunread]
    exact hreads.awaits
  · rw [hreads.missed, hreads.excess, h.missed]
    rfl

/-- **Through any notices a subscriber hears what its inbox gives.** -/
theorem hears_eq {f : Feed} (h : f.subscriber.Mirrors f.bus b) (notices : List Notice) :
    f.hears notices = b.run f.bus.capacity notices := by
  induction notices generalizing f b with
  | nil => rfl
  | cons notice notices ih =>
    cases notice with
    | arrival e => exact ih (h.publish e)
    | receive =>
      obtain ⟨hevent, hafter⟩ := h.receive
      have hrest := ih (f := f.step .receive) hafter
      rw [Feed.hears, hrest, Feed.hearsBy, hevent, hafter.missed]
      rfl

end Mirrors

end Subscription

end TextVault
