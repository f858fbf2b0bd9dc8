import TextVault.Proofs.Bus.Reading

/-
  The account of one subscriber.

  Problem: whatever happens between two receives, every event published since a subscriber came must end up
  in one place: given to it, left out for its kind, lost, or still to be read.

  Program: `Account` is the account of a subscriber from some point on: the events it has read or lost and
  those it has still to read, those that were given to it, and those that were left out.

  Spec: publishing and receiving keep the account (`Account.publishAll`, `Account.receive`). As long as
  nothing is lost it is exact: everything read was given or left out, by its kind (`Account.exact`).
-/
namespace TextVault

/-- What became of the events since a point at which `earlier` events had been lost. -/
structure Account (bus : Bus) (s : Subscription) (earlier : Nat)
    (read unread given leftOut : List Event) : Prop where
  awaits : s.Awaits bus unread
  own : given.Sublist (read.filter s.accepts)
  other : leftOut.Sublist (read.filter fun e => !s.accepts e)
  count : given.length + leftOut.length + s.missed = earlier + read.length

namespace Account

variable {bus : Bus} {s : Subscription} {earlier : Nat}
variable {read unread given leftOut : List Event}

/-- An account may be opened at any point. -/
theorem opened (h : s.Awaits bus unread) : Account bus s s.missed [] unread [] [] :=
  ⟨h, .slnil, .slnil, Nat.zero_add _⟩

/-- Publishing several events only adds to what is still unread. -/
theorem publishAll (h : Account bus s earlier read unread given leftOut) (es : List Event) :
    Account (es.foldl Channel.publish bus) s earlier read (unread ++ es) given leftOut :=
  ⟨h.awaits.publishAll es, h.own, h.other, h.count⟩

/-- The parts of the events read, by the kind of the subscriber. -/
theorem filter_reads {result : Option Event × Subscription} {lost passed rest : List Event}
    (h : s.Reads bus result unread lost passed rest) :
    passed.filter s.accepts = [] ∧ result.1.toList.filter s.accepts = result.1.toList ∧
      (passed.filter fun e => !s.accepts e) = passed := by
  refine ⟨?_, ?_, ?_⟩
  · rw [List.filter_eq_nil_iff]
    intro e he
    rw [h.other e he]
    exact Bool.false_ne_true
  · rw [List.filter_eq_self]
    intro e he
    exact h.own e (Option.mem_toList.mp he)
  · rw [List.filter_eq_self]
    intro e he
    rw [h.other e he]
    rfl

/-- **A receive keeps the account.** What it loses, passes over and gives moves from what is to be read to
what has been read. -/
theorem receive (h : Account bus s earlier read unread given leftOut) :
    ∃ read' unread', read' ++ unread' = read ++ unread ∧
      ((s.tryReceive bus).1 = none → unread' = []) ∧
      Account bus (s.tryReceive bus).2 earlier read' unread' (given ++ (s.tryReceive bus).1.toList)
        (leftOut ++ s.leftOut bus) := by
  obtain ⟨lost, rest, hreads⟩ := h.awaits.exists_reads
  obtain ⟨hpassed, hgiven, hleft⟩ := filter_reads hreads
  refine ⟨read ++ (lost ++ s.leftOut bus ++ (s.tryReceive bus).1.toList), rest, ?_, hreads.all_of_none,
    hreads.awaits, ?_, ?_, ?_⟩
  · rw [List.append_assoc, ← hreads.parts]
  · rw [Subscription.accepts_tryReceive, List.filter_append, List.filter_append, List.filter_append, hpassed, hgiven,
      List.append_nil]
    exact h.own.append (List.sublist_append_right _ _)
  · rw [Subscription.accepts_tryReceive, List.filter_append, List.filter_append, List.filter_append, hleft]
    refine h.other.append ?_
    exact (List.sublist_append_right _ _).trans (List.sublist_append_left _ _)
  · -- What was missed grows by the length of what was lost.
    have hcount := h.count
    rw [hreads.missed]
    simp only [List.length_append]
    omega

/-- **The next receive, told from the account alone.** It loses the excess over the capacity, gives the first
event of its kind among the rest, which is all that the channel keeps if anything was lost, and if it gives
none the account is closed. -/
theorem receive_eq (h : Account bus s earlier read unread given leftOut) :
    let lost := unread.length - bus.capacity
    (s.tryReceive bus).2.missed = s.missed + lost ∧
    (s.tryReceive bus).1 = ((read ++ unread).drop (read.length + lost)).find? s.accepts ∧
    (bus.capacity ≤ unread.length → (read ++ unread).drop (read.length + lost) = bus.kept) ∧
    ((s.tryReceive bus).1 = none →
      given.length + (leftOut ++ s.leftOut bus).length + (s.missed + lost) =
        earlier + (read ++ unread).length) := by
  intro lost
  obtain ⟨lostEvents, rest, hreads⟩ := h.awaits.exists_reads
  have hmissed : (s.tryReceive bus).2.missed = s.missed + lost := by
    rw [hreads.missed, hreads.excess]
  rw [List.drop_length_add_append]
  refine ⟨hmissed, hreads.event_eq, h.awaits.kept_eq, fun hevent => ?_⟩
  obtain ⟨read', unread', hparts, hall, hafter⟩ := h.receive
  have hcount := hafter.count
  rw [hall hevent, List.append_nil] at hparts
  rw [hevent, Option.toList_none, List.append_nil, hmissed, hparts] at hcount
  exact hcount

/-- Events are of the subscriber's kind or of others. -/
theorem length_filter_add (s : Subscription) (es : List Event) :
    (es.filter s.accepts).length + (es.filter fun e => !s.accepts e).length = es.length := by
  rw [← List.countP_eq_length_filter, ← List.countP_eq_length_filter,
    List.length_eq_countP_add_countP s.accepts]
  simp

/-- **As long as nothing is lost, everything of the subscriber's kind is given to it.** -/
theorem exact (h : Account bus s earlier read unread given leftOut) (hmissed : s.missed = earlier) :
    given = read.filter s.accepts := by
  have hgiven := h.own.length_le
  have hleft := h.other.length_le
  have hcount := h.count
  have hread := length_filter_add s read
  exact h.own.eq_of_length_le (by omega)

/-- The count of the lost never goes down. -/
theorem earlier_le (h : Account bus s earlier read unread given leftOut) : earlier ≤ s.missed := by
  have hgiven := h.own.length_le
  have hleft := h.other.length_le
  have hcount := h.count
  have hread := length_filter_add s read
  omega

end Account

end TextVault
