import TextVault.Bus.Subscription
import TextVault.Proofs.Bus.Channel

/-
  What one receive does.

  Problem: a receive reads on past events that were lost and events of other kinds, so how far it goes and
  what it counts depend on all that was published since the last one.

  Program: `leftOut` lists the events that a receive reads but does not give, for they are not of the
  subscriber's kind. `Awaits` says of a subscriber which events it has not read yet.

  Spec: a receive cuts what was not read in four, in order: what is lost is the excess over the capacity,
  what is passed over is of other kinds, then comes the event it gives, if there is one, and the rest is
  still to be read (`Awaits.exists_reads`). One look of a subscriber that waits does the same (`poll_eq`).
-/
namespace TextVault

/-- How a look ends, by the event that a receive would give. -/
def Polled.ofReceived (isOpen : Bool) : Option Event → Polled
  | some e => .event e
  | none => if isOpen then .pending else .closed

/-- Whether an event is one that a subscriber to a kind, or to all, is to get. -/
def Event.isOf (kind : Option EventKind) (e : Event) : Bool := kind.all (e.kind == ·)

namespace Subscription

/-- A subscriber takes exactly the events of its kind. -/
theorem accepts_eq (s : Subscription) : s.accepts = (Event.isOf s.kind ·) := by
  funext e
  rw [accepts, Event.isOf]
  cases s.kind with
  | none => rfl
  | some kind => rfl

/-! ## The loop, one round at a time -/

section

-- What is found at the place is named for the sake of the proof that the reading comes to an end.
set_option linter.unusedVariables false

/-- The events that a receive reads and does not give. -/
def leftOut (bus : Bus) (s : Subscription) : List Event :=
  match hfound : bus.next s.place with
  | .item e => if s.accepts e then [] else e :: leftOut bus s.pass
  | .lost count => leftOut bus (s.skip count)
  | .nothing => []
termination_by bus.published - s.place
decreasing_by
  · have := Channel.place_lt_of_next_item hfound
    rw [place_pass]
    omega
  · have := Channel.add_of_next_lost hfound
    have : bus.dropped ≤ bus.published := Nat.le_add_right ..
    rw [place_skip]
    omega

end

section Rounds

variable {bus : Bus} {s : Subscription}

/-- An event at the place ends the reading if it is of the kind, and is passed over if not. -/
theorem tryReceive_of_item {e : Event} (h : bus.next s.place = .item e) :
    s.tryReceive bus = if s.accepts e then (some e, s.pass) else s.pass.tryReceive bus := by
  rw [tryReceive]
  split <;> simp_all

/-- Lost events are skipped in one stride, and reading goes on behind them. -/
theorem tryReceive_of_lost {count : Nat} (h : bus.next s.place = .lost count) :
    s.tryReceive bus = (s.skip count).tryReceive bus := by
  rw [tryReceive]
  split <;> simp_all

theorem tryReceive_of_nothing (h : bus.next s.place = .nothing) : s.tryReceive bus = (none, s) := by
  rw [tryReceive]
  split <;> simp_all

/-- What is left out follows the reading: an event that is taken ends it, another one is left out. -/
theorem leftOut_of_item {e : Event} (h : bus.next s.place = .item e) :
    s.leftOut bus = if s.accepts e then [] else e :: s.pass.leftOut bus := by
  rw [leftOut]
  split <;> simp_all

theorem leftOut_of_lost {count : Nat} (h : bus.next s.place = .lost count) :
    s.leftOut bus = (s.skip count).leftOut bus := by
  rw [leftOut]
  split <;> simp_all

theorem leftOut_of_nothing (h : bus.next s.place = .nothing) : s.leftOut bus = [] := by
  rw [leftOut]
  split <;> simp_all

/-- A receive leaves the subscriber the kind it has. -/
theorem kind_tryReceive (bus : Bus) (s : Subscription) : (s.tryReceive bus).2.kind = s.kind := by
  fun_induction tryReceive bus s with
  | case1 => rfl
  | case2 s e hnext haccepts ih => exact ih
  | case3 s count hnext ih => exact ih
  | case4 => rfl

/-- Reading does not change what a subscriber is interested in. -/
theorem accepts_tryReceive (bus : Bus) (s : Subscription) :
    (s.tryReceive bus).2.accepts = s.accepts := by
  rw [accepts_eq, accepts_eq, kind_tryReceive]

end Rounds

/-! ## What is still to be read -/

/-- Of all that was published, the subscriber has not read these events yet. -/
def Awaits (bus : Bus) (s : Subscription) (unread : List Event) : Prop :=
  ∃ read, bus.Carries (read ++ unread) ∧ s.place = read.length

/-- What a receive with the given result makes of the events not read yet. -/
structure Reads (bus : Bus) (s : Subscription) (result : Option Event × Subscription)
    (unread lost passed rest : List Event) : Prop where
  /-- The four parts, in order. -/
  parts : unread = lost ++ passed ++ result.1.toList ++ rest
  excess : lost.length = unread.length - bus.capacity
  other : ∀ e ∈ passed, s.accepts e = false
  own : ∀ e ∈ result.1, s.accepts e = true
  /-- Without an event, everything has been read. -/
  all_of_none : result.1 = none → rest = []
  missed : result.2.missed = s.missed + lost.length
  awaits : result.2.Awaits bus rest

namespace Reads

variable {bus : Bus} {s : Subscription} {result : Option Event × Subscription}
variable {unread lost passed rest : List Event}

/-- At the end there is nothing to cut. -/
theorem nothing (h : s.Awaits bus []) : Reads bus s (none, s) [] [] [] [] where
  parts := rfl
  excess := (Nat.zero_sub _).symm
  other := fun _ he => nomatch he
  own := fun _ he => nomatch he
  all_of_none := fun _ => rfl
  missed := rfl
  awaits := h

/-- The next event is given. -/
theorem give {e : Event} (hown : s.accepts e = true) (hroom : (e :: unread).length ≤ bus.capacity)
    (h : s.pass.Awaits bus unread) : Reads bus s (some e, s.pass) (e :: unread) [] [] unread where
  parts := rfl
  excess := (Nat.sub_eq_zero_of_le hroom).symm
  other := fun _ he => nomatch he
  own := fun _ he => Option.some.inj he ▸ hown
  all_of_none := fun hn => nomatch hn
  missed := rfl
  awaits := h

/-- The next event is passed over. -/
theorem pass {e : Event} (hother : s.accepts e = false) (hroom : (e :: unread).length ≤ bus.capacity)
    (h : Reads bus s.pass result unread [] passed rest) :
    Reads bus s result (e :: unread) [] (e :: passed) rest where
  parts := congrArg (e :: ·) h.parts
  excess := (Nat.sub_eq_zero_of_le hroom).symm
  other := List.forall_mem_cons.mpr ⟨hother, h.other⟩
  own := h.own
  all_of_none := h.all_of_none
  missed := h.missed
  awaits := h.awaits

/-- What is before the window is lost. -/
theorem skip (hexcess : lost.length = (lost ++ unread).length - bus.capacity)
    (h : Reads bus (s.skip lost.length) result unread [] passed rest) :
    Reads bus s result (lost ++ unread) lost passed rest where
  parts := by rw [h.parts, List.nil_append, List.append_assoc, List.append_assoc, List.append_assoc]
  excess := hexcess
  other := h.other
  own := h.own
  all_of_none := h.all_of_none
  missed := h.missed
  awaits := h.awaits

/-! ### The parts in closed form -/

/-- What the bus still keeps of the unread events falls into what was passed over, what was read, and the rest. -/
theorem drop_eq (h : Reads bus s result unread lost passed rest) :
    unread.drop (unread.length - bus.capacity) = passed ++ result.1.toList ++ rest := by
  rw [← h.excess, h.parts, List.append_assoc, List.append_assoc, List.drop_left, List.append_assoc]

/-- The event given is the first of the subscriber's kind among those not lost. -/
theorem event_eq (h : Reads bus s result unread lost passed rest) :
    result.1 = (unread.drop (unread.length - bus.capacity)).find? s.accepts := by
  have hpassed : passed.find? s.accepts = none := by
    rw [List.find?_eq_none]
    intro e he
    rw [h.other e he]
    exact Bool.false_ne_true
  rw [h.drop_eq, List.append_assoc, List.find?_append, hpassed, Option.none_or]
  cases hevent : result.1 with
  | none =>
    rw [h.all_of_none hevent]
    rfl
  | some e => exact (List.find?_cons_of_pos (h.own e hevent)).symm

/-- What is still to be read is what comes after it. -/
theorem rest_eq (h : Reads bus s result unread lost passed rest) :
    rest = ((unread.drop (unread.length - bus.capacity)).dropWhile (!s.accepts ·)).tail := by
  have hpassed : ∀ e ∈ passed, (!s.accepts e) = true := by
    intro e he
    rw [h.other e he]
    rfl
  rw [h.drop_eq, List.append_assoc, List.dropWhile_append_of_pos hpassed]
  cases hevent : result.1 with
  | none =>
    rw [h.all_of_none hevent]
    rfl
  | some e =>
    show rest = ((e :: rest).dropWhile (!s.accepts ·)).tail
    rw [List.dropWhile_cons_of_neg (by rw [h.own e hevent]; exact Bool.false_ne_true)]
    rfl

end Reads

namespace Awaits

variable {bus : Bus} {s : Subscription} {read unread : List Event}

/-- A new subscriber has nothing to read. -/
theorem start {history : List Event} (h : bus.Carries history) (kind : Option EventKind) :
    (Subscription.start bus kind).Awaits bus [] :=
  ⟨history, by rw [List.append_nil]; exact h, h.published⟩

/-- A new event joins the unread ones at the end. What it pushes out shows only when the subscriber reads. -/
theorem publish (h : s.Awaits bus unread) (e : Event) : s.Awaits (bus.publish e) (unread ++ [e]) := by
  obtain ⟨read, hcarries, hplace⟩ := h
  exact ⟨read, by rw [← List.append_assoc]; exact hcarries.publish e, hplace⟩

/-- Several events join them in order. -/
theorem publishAll (h : s.Awaits bus unread) (es : List Event) :
    s.Awaits (es.foldl Channel.publish bus) (unread ++ es) := by
  obtain ⟨read, hcarries, hplace⟩ := h
  exact ⟨read, by rw [← List.append_assoc]; exact hcarries.publishAll es, hplace⟩

/-- Behind the window, what is not lost is what the channel keeps. -/
theorem kept_eq (h : s.Awaits bus unread) (hbehind : bus.capacity ≤ unread.length) :
    unread.drop (unread.length - bus.capacity) = bus.kept := by
  obtain ⟨read, hcarries, -⟩ := h
  have hdropped := hcarries.dropped
  rw [List.length_append] at hdropped
  have hwindow : bus.dropped = read.length + (unread.length - bus.capacity) := by omega
  rw [hcarries.kept, hwindow, List.drop_length_add_append]

/-- Within the window nothing is lost. The induction is on what is still to be read. -/
theorem exists_reads_of_le (hcarries : bus.Carries (read ++ unread)) (hplace : s.place = read.length)
    (hwindow : bus.dropped ≤ read.length) :
    ∃ rest, Reads bus s (s.tryReceive bus) unread [] (s.leftOut bus) rest := by
  induction unread generalizing read s with
  | nil =>
    have hnext : bus.next s.place = .nothing := by
      rw [hplace, ← List.append_nil read]
      exact hcarries.next_of_end
    rw [tryReceive_of_nothing hnext, leftOut_of_nothing hnext]
    exact ⟨[], .nothing ⟨read, hcarries, hplace⟩⟩
  | cons e unread ih =>
    have hnext : bus.next s.place = .item e := by
      rw [hplace]
      exact hcarries.next_of_unread hwindow
    -- None of the unread events was dropped, so together they fit the capacity of the channel.
    have hroom : (e :: unread).length ≤ bus.capacity := by
      have hdropped := hcarries.dropped
      rw [List.length_append] at hdropped
      omega
    have hcarries' : bus.Carries ((read ++ [e]) ++ unread) := by
      rw [← List.append_cons]
      exact hcarries
    have hplace' : s.pass.place = (read ++ [e]).length := by
      rw [place_pass, hplace, List.length_append]
      rfl
    rw [tryReceive_of_item hnext, leftOut_of_item hnext]
    -- An event of the subscriber's kind ends the reading; any other moves it on by one.
    cases haccepts : s.accepts e with
    | true => exact ⟨unread, .give haccepts hroom ⟨read ++ [e], hcarries', hplace'⟩⟩
    | false =>
      have hwindow' : bus.dropped ≤ (read ++ [e]).length := by
        rw [List.length_append]
        omega
      obtain ⟨rest, hreads⟩ := ih hcarries' hplace' hwindow'
      exact ⟨rest, .pass haccepts hroom hreads⟩

/-- **A receive cuts what was not read in four.** Behind the window it first moves up to it. -/
theorem exists_reads (h : s.Awaits bus unread) :
    ∃ lost rest, Reads bus s (s.tryReceive bus) unread lost (s.leftOut bus) rest := by
  obtain ⟨read, hcarries, hplace⟩ := h
  rcases Nat.lt_or_ge read.length bus.dropped with hbehind | hwindow
  · have hdropped := hcarries.dropped
    rw [List.length_append] at hdropped
    -- What is lost lies between the place of the subscriber and the window.
    have hnext : bus.next s.place = .lost (bus.dropped - read.length) := by
      rw [hplace]
      exact Channel.next_of_lt hbehind
    obtain ⟨lost, kept, rfl, hlost⟩ : ∃ lost kept, unread = lost ++ kept ∧
        lost.length = bus.dropped - read.length :=
      ⟨unread.take (bus.dropped - read.length), unread.drop (bus.dropped - read.length),
        (List.take_append_drop _ _).symm, by rw [List.length_take]; omega⟩
    rw [tryReceive_of_lost hnext, leftOut_of_lost hnext, ← hlost]
    have hcarries' : bus.Carries ((read ++ lost) ++ kept) := by
      rw [List.append_assoc]
      exact hcarries
    have hplace' : (s.skip lost.length).place = (read ++ lost).length := by
      rw [place_skip, hplace, List.length_append]
    have hwindow' : bus.dropped ≤ (read ++ lost).length := by
      rw [List.length_append]
      omega
    obtain ⟨rest, hreads⟩ := exists_reads_of_le hcarries' hplace' hwindow'
    exact ⟨lost, rest, .skip (by omega) hreads⟩
  · obtain ⟨rest, hreads⟩ := exists_reads_of_le hcarries hplace hwindow
    exact ⟨[], rest, hreads⟩

end Awaits

/-! ## One look of a subscriber that waits -/

/-- **A look is a receive**, but for the knowledge whether there can be another event. -/
theorem poll_eq (bus : Bus) (isOpen : Bool) (s : Subscription) :
    s.poll bus isOpen = (Polled.ofReceived isOpen (s.tryReceive bus).1, (s.tryReceive bus).2) := by
  fun_induction poll bus isOpen s with
  | case1 s e hnext haccepts => rw [tryReceive_of_item hnext, if_pos haccepts]; rfl
  | case2 s e hnext haccepts ih => rw [tryReceive_of_item hnext, if_neg haccepts, ih]
  | case3 s count hnext ih => rw [tryReceive_of_lost hnext, ih]
  | case4 s hnext => rw [tryReceive_of_nothing hnext]; rfl

end Subscription

end TextVault
