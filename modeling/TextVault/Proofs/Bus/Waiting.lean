import TextVault.Proofs.Bus.Delivery

/-
  Waiting for an event and asking for one.

  Problem: who waits for an event and who asks whether there is one go through loops of their own, which pass
  over events of other kinds and start again where events were lost. The two must not differ in what they
  give, count or use up, whatever the bus holds, and both have to come to an end.

  Program: `tryRound` and `pollRound` are one round of either loop, and `within` runs a loop for some number of
  rounds at most. `ahead` lists the events kept that a subscriber has not come to, `matching` those of its kind.

  Spec: a loop goes on only past an event of another kind, or past all that is lost, and that only once; so
  the number of its rounds is known beforehand (`rounds`). The two loops go round together (`pollRound_eq`), so
  both need just as many. To its subscriber a bus is the queue `matching`, from wherever it starts
  (`received`). A receive takes the first event of the queue, and the calls that follow take the rest, one by
  one (`answer_of_asks`).
-/
namespace TextVault

namespace Subscription

/-! ## The events ahead -/

/-- The events that are kept and that the subscriber has not come to. -/
def ahead (bus : Bus) (s : Subscription) : List Event := bus.kept.drop (s.place - bus.dropped)

/-- Those among them that it is to get. -/
def matching (bus : Bus) (s : Subscription) : List Event := (s.ahead bus).filter (Event.isOf s.kind ·)

section Ahead

variable {bus : Bus} {s : Subscription} {e : Event} {count : Nat}

/-- The event found at the place is the first of those ahead, and behind it come the others. -/
theorem ahead_of_item (h : bus.next s.place = .item e) :
    bus.dropped ≤ s.place ∧ s.ahead bus = e :: s.pass.ahead bus := by
  unfold Channel.next at h
  split at h
  · nomatch h
  · next hwindow =>
    have hle : bus.dropped ≤ s.place := Nat.not_lt.mp hwindow
    split at h
    · next e' hget =>
      obtain rfl := Arrival.item.inj h
      obtain ⟨hlt, hfound⟩ := List.getElem?_eq_some_iff.mp hget
      refine ⟨hle, ?_⟩
      rw [ahead, List.drop_eq_getElem_cons hlt, hfound, ahead, place_pass, Nat.sub_add_comm hle]
    · nomatch h

/-- Moving on to the oldest event kept leaves the same events ahead. -/
theorem ahead_of_lost (h : bus.next s.place = .lost count) :
    s.place < bus.dropped ∧ s.place + count = bus.dropped ∧ (s.skip count).ahead bus = s.ahead bus := by
  obtain ⟨hpos, hsum⟩ := Channel.add_of_next_lost h
  have hlt : s.place < bus.dropped := by omega
  refine ⟨hlt, hsum, ?_⟩
  rw [ahead, ahead, place_skip, hsum, Nat.sub_self, Nat.sub_eq_zero_of_le (Nat.le_of_lt hlt)]

theorem ahead_of_published_le (h : bus.published ≤ s.place) : s.ahead bus = [] := by
  rw [Channel.published] at h
  apply List.drop_eq_nil_of_le
  omega

/-- Nothing is found only at the end, where no event has been lost either. -/
theorem ahead_of_nothing (h : bus.next s.place = .nothing) :
    bus.dropped ≤ s.place ∧ bus.published ≤ s.place ∧ s.ahead bus = [] := by
  unfold Channel.next at h
  split at h
  · nomatch h
  · next hwindow =>
    have hle : bus.dropped ≤ s.place := Nat.not_lt.mp hwindow
    split at h
    · nomatch h
    · next hget =>
      -- Behind the window there is nothing, but that is the end.
      have hend : bus.published ≤ s.place := by
        have hlength := List.getElem?_eq_none_iff.mp hget
        rw [Channel.published]
        omega
      exact ⟨hle, hend, ahead_of_published_le hend⟩

/-- An event of the kind is the first that matches. -/
theorem matching_of_own (h : bus.next s.place = .item e) (hown : s.accepts e = true) :
    s.matching bus = e :: s.pass.matching bus := by
  rw [accepts_eq] at hown
  rw [matching, (ahead_of_item h).2, List.filter_cons_of_pos hown]
  rfl

theorem matching_of_other (h : bus.next s.place = .item e) (hother : ¬ s.accepts e = true) :
    s.matching bus = s.pass.matching bus := by
  rw [accepts_eq] at hother
  rw [matching, (ahead_of_item h).2, List.filter_cons_of_neg hother]
  rfl

/-- What was lost cannot match any more, so skipping it changes nothing. -/
theorem matching_of_lost (h : bus.next s.place = .lost count) :
    (s.skip count).matching bus = s.matching bus := by
  rw [matching, (ahead_of_lost h).2.2]
  rfl

end Ahead

/-! ## A subscriber and its queue -/

/-- What a receive with the given result does to the queue of the subscriber. -/
structure Received (bus : Bus) (s : Subscription) (result : Option Event × Subscription) : Prop where
  event : result.1 = (s.matching bus).head?
  rest : result.2.matching bus = (s.matching bus).tail
  missed : result.2.missed = s.missed + (bus.dropped - s.place)
  /-- Nothing is lost for the time being. -/
  caughtUp : bus.dropped ≤ result.2.place
  /-- Without an event, everything kept has been read. -/
  atEnd : result.1 = none → result.2.place = max s.place bus.published

/-- **A receive takes the first event of the queue**, wherever in the bus the subscriber is. -/
theorem received (bus : Bus) (s : Subscription) : Received bus s (s.tryReceive bus) := by
  fun_induction tryReceive bus s with
  -- The event at the place is of the kind, so reading ends with it.
  | case1 s e hnext hown =>
    obtain ⟨hle, -⟩ := ahead_of_item hnext
    have hmatching := matching_of_own hnext hown
    refine ⟨?_, ?_, ?_, Nat.le_succ_of_le hle, ?_⟩
    · rw [hmatching, List.head?_cons]
    · rw [hmatching, List.tail_cons]
    · rw [Nat.sub_eq_zero_of_le hle]
      rfl
    · intro hnone
      cases hnone
  -- It is of another kind: it matches nothing, and the rest is as for the next place.
  | case2 s e hnext hother ih =>
    obtain ⟨hle, -⟩ := ahead_of_item hnext
    have hlt := Channel.place_lt_of_next_item hnext
    obtain ⟨hevent, hrest, hmissed, hcaught, hend⟩ := ih
    rw [← matching_of_other hnext hother] at hevent hrest
    refine ⟨hevent, hrest, ?_, hcaught, ?_⟩
    · rw [hmissed, Nat.sub_eq_zero_of_le hle, place_pass, Nat.sub_eq_zero_of_le (Nat.le_succ_of_le hle)]
      rfl
    · intro hnone
      rw [hend hnone, place_pass]
      omega
  -- There is a gap: what was lost is counted here, and behind it nothing more can have been lost.
  | case3 s count hnext ih =>
    obtain ⟨hlt, hsum, -⟩ := ahead_of_lost hnext
    have hpublished : bus.dropped ≤ bus.published := Nat.le_add_right ..
    obtain ⟨hevent, hrest, hmissed, hcaught, hend⟩ := ih
    rw [matching_of_lost hnext] at hevent hrest
    refine ⟨hevent, hrest, ?_, hcaught, ?_⟩
    · have hskip : (s.skip count).missed = s.missed + count := rfl
      rw [hmissed, hskip, place_skip]
      omega
    · intro hnone
      rw [hend hnone, place_skip]
      omega
  -- There is nothing at the place, so nothing is ahead and nothing matches.
  | case4 s hnext =>
    obtain ⟨hle, hend, hnil⟩ := ahead_of_nothing hnext
    have hmatching : s.matching bus = [] := by rw [matching, hnil, List.filter_nil]
    refine ⟨?_, ?_, ?_, hle, fun _ => (Nat.max_eq_left hend).symm⟩
    · rw [hmatching, List.head?_nil]
    · rw [hmatching, List.tail_nil]
    · rw [Nat.sub_eq_zero_of_le hle, Nat.add_zero]

/-- Nothing matches exactly if every event ahead is of another kind. -/
theorem matching_eq_nil_iff (bus : Bus) (s : Subscription) :
    s.matching bus = [] ↔ ∀ e ∈ s.ahead bus, Event.isOf s.kind e = false := by
  rw [matching, List.filter_eq_nil_iff]
  simp only [Bool.not_eq_true]

/-! ## The rounds of the two loops -/

/-- One round of asking for an event: it ends with a result, or the loop goes on. -/
def tryRound (bus : Bus) (s : Subscription) : Option (Option Event) × Subscription :=
  match bus.next s.place with
  | .item e => (if s.accepts e then some (some e) else none, s.pass)
  | .lost count => (none, s.skip count)
  | .nothing => (some none, s)

/-- One round of a look of a subscriber that waits. -/
def pollRound (bus : Bus) (isOpen : Bool) (s : Subscription) : Option Polled × Subscription :=
  match bus.next s.place with
  | .item e => (if s.accepts e then some (.event e) else none, s.pass)
  | .lost count => (none, s.skip count)
  | .nothing => (some (if isOpen then .pending else .closed), s)

/-- A loop that may take so many rounds; it gives nothing if it needs more. -/
def within {α : Type} (round : Subscription → Option α × Subscription) :
    Nat → Subscription → Option (α × Subscription)
  | 0, _ => none
  | n + 1, s =>
    match round s with
    | (some result, s') => some (result, s')
    | (none, s') => within round n s'

/-- How many rounds a loop needs: one if events were lost, one for each event of another kind before the first of
the subscriber's own, and the one that ends it. -/
def rounds (bus : Bus) (s : Subscription) : Nat :=
  (if s.place < bus.dropped then 1 else 0) + ((s.ahead bus).takeWhile fun e => !s.accepts e).length + 1

section Rounds

variable {bus : Bus} {s : Subscription} {e : Event} {count : Nat}

/-- The loop ends in the round that finds an event of the kind. -/
theorem rounds_of_own (h : bus.next s.place = .item e) (hown : s.accepts e = true) : s.rounds bus = 1 := by
  obtain ⟨hle, hahead⟩ := ahead_of_item h
  have hstop : ¬ (!s.accepts e) = true := by simp [hown]
  rw [rounds, if_neg (Nat.not_lt.mpr hle), hahead,
    List.takeWhile_cons_of_neg (p := fun e => !s.accepts e) hstop, List.length_nil]

theorem rounds_of_other (h : bus.next s.place = .item e) (hother : ¬ s.accepts e = true) :
    s.rounds bus = s.pass.rounds bus + 1 := by
  obtain ⟨hle, hahead⟩ := ahead_of_item h
  have hgo : (!s.accepts e) = true := by simp [hother]
  have hle' : bus.dropped ≤ s.pass.place := Nat.le_succ_of_le hle
  rw [rounds, rounds, if_neg (Nat.not_lt.mpr hle), if_neg (Nat.not_lt.mpr hle'), hahead,
    List.takeWhile_cons_of_pos (p := fun e => !s.accepts e) hgo, List.length_cons]
  rfl

/-- A gap costs one round, however many events were lost in it. -/
theorem rounds_of_lost (h : bus.next s.place = .lost count) :
    s.rounds bus = (s.skip count).rounds bus + 1 := by
  obtain ⟨hlt, hsum, hahead⟩ := ahead_of_lost h
  have hcaught : ¬ (s.skip count).place < bus.dropped := by
    rw [place_skip]
    omega
  rw [rounds, rounds, if_pos hlt, if_neg hcaught, hahead, Nat.zero_add, Nat.add_comm 1]
  rfl

/-- Finding nothing takes one round as well: it ends the loop either way. -/
theorem rounds_of_nothing (h : bus.next s.place = .nothing) : s.rounds bus = 1 := by
  obtain ⟨hle, -, hnil⟩ := ahead_of_nothing h
  rw [rounds, if_neg (Nat.not_lt.mpr hle), hnil, List.takeWhile_nil, List.length_nil]

/-- No loop needs more rounds than there are events ahead, and two. -/
theorem rounds_le (bus : Bus) (s : Subscription) : s.rounds bus ≤ (s.ahead bus).length + 2 := by
  have htake : ((s.ahead bus).takeWhile fun e => !s.accepts e).length ≤ (s.ahead bus).length :=
    (List.takeWhile_sublist _).length_le
  rw [rounds]
  split
  · omega
  · omega

/-- **A loop gives its result as soon as it may take the rounds it needs.** Each round that does not end takes one of
them and leaves the result the same. -/
theorem within_eq {α : Type} {round : Subscription → Option α × Subscription} {needed : Subscription → Nat}
    (result : Subscription → α × Subscription)
    (hends : ∀ s a s', round s = (some a, s') → needed s = 1 ∧ result s = (a, s'))
    (hgoes : ∀ s s', round s = (none, s') → needed s = needed s' + 1 ∧ result s = result s')
    (n : Nat) (s : Subscription) :
    within round n s = if needed s ≤ n then some (result s) else none := by
  induction n generalizing s with
  | zero =>
    -- No loop ends without a round.
    have hpos : ¬ needed s ≤ 0 := by
      rcases hround : round s with ⟨_ | a, s'⟩
      · have := (hgoes s s' hround).1
        omega
      · have := (hends s a s' hround).1
        omega
    rw [within, if_neg hpos]
  | succ n ih =>
    rw [within]
    rcases hround : round s with ⟨_ | a, s'⟩
    · obtain ⟨hneeded, hresult⟩ := hgoes s s' hround
      rw [hneeded, hresult]
      show within round n s' = _
      rw [ih s']
      simp only [Nat.add_le_add_iff_right]
    · obtain ⟨hneeded, hresult⟩ := hends s a s' hround
      rw [hneeded, hresult, if_pos (Nat.le_add_left 1 n)]

/-- Asking for an event comes to an end. -/
theorem within_tryRound (bus : Bus) (n : Nat) (s : Subscription) :
    within (tryRound bus) n s = if s.rounds bus ≤ n then some (s.tryReceive bus) else none := by
  refine within_eq (tryReceive bus ·) ?_ ?_ n s
  · -- A round that ends: an event of the kind, or the end of the channel.
    intro s a s' hround
    unfold tryRound at hround
    split at hround
    · next e hnext =>
      split at hround
      · next hown =>
        cases hround
        exact ⟨rounds_of_own hnext hown, by rw [tryReceive_of_item hnext, if_pos hown]⟩
      · nomatch hround
    · nomatch hround
    · next hnext =>
      cases hround
      exact ⟨rounds_of_nothing hnext, tryReceive_of_nothing hnext⟩
  · -- A round that goes on: an event of another kind, or a gap.
    intro s s' hround
    unfold tryRound at hround
    split at hround
    · next e hnext =>
      split at hround
      · nomatch hround
      · next hother =>
        cases hround
        exact ⟨rounds_of_other hnext hother, by rw [tryReceive_of_item hnext, if_neg hother]⟩
    · next count hnext =>
      cases hround
      exact ⟨rounds_of_lost hnext, tryReceive_of_lost hnext⟩
    · nomatch hround

/-- The two loops go round together; only what they give at the end is put in other words. -/
theorem pollRound_eq (bus : Bus) (isOpen : Bool) (s : Subscription) :
    pollRound bus isOpen s = ((tryRound bus s).1.map (Polled.ofReceived isOpen), (tryRound bus s).2) := by
  unfold pollRound tryRound
  split
  · split <;> rfl
  · rfl
  · rfl

/-- Both kinds of loop are the same up to the words for their results, and this carries results from one to the
other. -/
theorem within_map {α β : Type} (f : α → β) (round : Subscription → Option α × Subscription) (n : Nat)
    (s : Subscription) :
    within (fun s => ((round s).1.map f, (round s).2)) n s = (within round n s).map fun r => (f r.1, r.2) := by
  induction n generalizing s with
  | zero => rfl
  | succ n ih =>
    rw [within, within]
    rcases round s with ⟨_ | a, s'⟩
    · exact ih s'
    · rfl

/-- So does a look of a subscriber that waits, in as many rounds. -/
theorem within_pollRound (bus : Bus) (isOpen : Bool) (n : Nat) (s : Subscription) :
    within (pollRound bus isOpen) n s = if s.rounds bus ≤ n then some (s.poll bus isOpen) else none := by
  rw [funext (pollRound_eq bus isOpen), within_map, within_tryRound, poll_eq]
  split <;> rfl

end Rounds

end Subscription

/-! ## One call after another -/

namespace Hall

/-- How a call is answered that is given the event, if there is one, after so many were lost. -/
def Op.answer (isOpen : Bool) (event : Option Event) (missed : Nat) : Op → Answer
  | .tryReceive _ => .received event missed
  | .poll _ => .polled (.ofReceived isOpen event) missed
  | _ => .refused

section Calls

variable {h : Hall} {name : String} {s : Subscription} {op : Op}

/-- What a subscriber is told by an operation of its own is what one reading gives, in the words of the operation. -/
theorem answer_step (hs : h.subscribers.get? name = some s) (hasks : op.asks name = true) :
    (h.step op).2 = op.answer h.isOpen (s.tryReceive h.bus).1 (s.tryReceive h.bus).2.missed := by
  cases op with
  | tryReceive asked =>
    obtain rfl := eq_of_beq hasks
    rw [step, hs]
    rfl
  | poll asked =>
    obtain rfl := eq_of_beq hasks
    rw [step, hs]
    simp only [Subscription.poll_eq]
    rfl
  | _ => exact absurd hasks Bool.false_ne_true

/-- Reading closes nothing. -/
theorem isOpen_step_of_asks (hasks : op.asks name = true) : (h.step op).1.isOpen = h.isOpen := by
  cases op with
  | tryReceive asked =>
    rw [step]
    cases h.subscribers.get? asked with
    | _ => rfl
  | poll asked =>
    rw [step]
    cases h.subscribers.get? asked with
    | _ => rfl
  | _ => exact absurd hasks Bool.false_ne_true

/-- **Calls take the queue of the subscriber event by event**, whether they wait or not. -/
theorem answer_of_asks (hs : h.subscribers.get? name = some s) {ops : List Op}
    (hops : ∀ op ∈ ops, op.asks name = true) {i : Nat} (hi : ops[i]? = some op) :
    (h.run ops).2[i]? =
      some (op.answer h.isOpen (s.matching h.bus)[i]? (s.missed + (h.bus.dropped - s.place))) := by
  induction ops generalizing h s i with
  | nil => nomatch hi
  | cons first ops ih =>
    obtain ⟨hasks, hrest⟩ := List.forall_mem_cons.mp hops
    obtain ⟨hevent, hqueue, hmissed, hcaught, -⟩ := Subscription.received h.bus s
    rw [run_cons]
    cases i with
    | zero =>
      obtain rfl := Option.some.inj hi
      rw [List.getElem?_cons_zero, answer_step hs hasks, hevent, hmissed, List.head?_eq_getElem?]
    | succ i =>
      -- Reading leaves the bus alone, so the rest of the queue is what is left for the later calls, and no event
      -- more is lost.
      have hbus : (h.step first).1.bus = h.bus := by
        rw [bus_step, event?_of_asks hasks]
        rfl
      have hnext := ih (step_of_receive hs hasks).1 hrest hi
      rw [hbus, isOpen_step_of_asks hasks, hqueue, List.getElem?_tail, hmissed, Nat.sub_eq_zero_of_le hcaught,
        Nat.add_zero] at hnext
      exact hnext

end Calls

end Hall

namespace Subscription

/-- **Waiting and asking agree.** Whatever a bus holds and wherever in it a subscriber is, both loops come to an end,
after the same number of rounds. They give the same event, leave the subscriber at the same place and count the same
losses. There is no event exactly if none of those ahead is of its kind; then all of them have been read, and who waits
learns whether there can be another. Call after call, in either way, gives the events ahead that are of its kind, in
order, and the end is told of only after the last of them. -/
theorem receives_agree (bus : Bus) (isOpen : Bool) (s : Subscription) :
    let asked := s.tryReceive bus
    let waited := s.poll bus isOpen
    (∀ n, within (tryRound bus) n s = if s.rounds bus ≤ n then some asked else none) ∧
    (∀ n, within (pollRound bus isOpen) n s = if s.rounds bus ≤ n then some waited else none) ∧
    s.rounds bus ≤ (s.ahead bus).length + 2 ∧
    (∀ e, waited.1 = .event e ↔ asked.1 = some e) ∧ waited.2 = asked.2 ∧
    asked.2.missed = s.missed + (bus.dropped - s.place) ∧
    (asked.1 = none ↔ ∀ e ∈ s.ahead bus, e.isOf s.kind = false) ∧
    (asked.1 = none → asked.2.ahead bus = [] ∧ asked.2.place = max s.place bus.published ∧
      waited.1 = if isOpen then .pending else .closed) ∧
    ∀ (h : Hall) (name : String), h.bus = bus → h.isOpen = isOpen → h.subscribers.get? name = some s →
      ∀ ops : List Hall.Op, (∀ op ∈ ops, op.asks name = true) →
        ∀ (i : Nat) (op : Hall.Op), ops[i]? = some op → (h.run ops).2[i]? =
          some (op.answer isOpen (s.matching bus)[i]? (s.missed + (bus.dropped - s.place))) := by
  intro asked waited
  -- All is said of one reading that finds the first match; what a look of one that waits makes of it is only its
  -- answer.
  have hreceived := received bus s
  have hwaited : waited = (Polled.ofReceived isOpen asked.1, asked.2) := poll_eq bus isOpen s
  refine ⟨fun n => within_tryRound bus n s, fun n => within_pollRound bus isOpen n s, rounds_le bus s, ?_, ?_,
    hreceived.missed, ?_, ?_, ?_⟩
  · intro e
    rw [hwaited]
    cases asked.1 with
    | none => cases isOpen <;> simp [Polled.ofReceived]
    | some e' => simp [Polled.ofReceived]
  · rw [hwaited]
  · rw [← matching_eq_nil_iff, ← List.head?_eq_none_iff, ← hreceived.event]
  · -- Without a match the place has moved to the end.
    intro hnone
    have hplace : asked.2.place = max s.place bus.published := hreceived.atEnd hnone
    refine ⟨?_, hplace, ?_⟩
    · apply ahead_of_published_le
      omega
    · rw [hwaited, hnone]
      rfl
  · rintro h name rfl rfl hs ops hops i op hi
    exact Hall.answer_of_asks hs hops hi

/-- The bus is gone and keeps two events of three, one of them a code: one call gives it and the next ones tell of
the end, in either way. -/
theorem receives_agree_closed :
    let bus : Bus := { capacity := 2, dropped := 1, kept := [.credentialCleared, .challengeReceived "3"] }
    let s : Subscription := { kind := some .challengeReceived, place := 0 }
    let h : Hall := { bus, isOpen := false, subscribers := ⟨[("a", s)]⟩ }
    let ops : List Hall.Op := [.poll "a", .tryReceive "a", .poll "a"]
    (∀ op ∈ ops, op.asks "a" = true) ∧
    (h.run ops).2[0]? = some (.polled (.event (.challengeReceived "3")) 1) ∧
    (h.run ops).2[1]? = some (.received none 1) ∧ (h.run ops).2[2]? = some (.polled .closed 1) ∧
    ({ s with place := 3 }.tryReceive bus).1 = none ∧ ({ s with place := 3 }.poll bus false).1 = .closed := by
  intro bus s h ops
  have hops : ∀ op ∈ ops, op.asks "a" = true := by decide
  obtain ⟨-, -, -, -, -, -, -, -, hsession⟩ := receives_agree bus false s
  have hcalls := hsession h "a" rfl rfl rfl ops hops
  obtain ⟨-, -, -, -, -, -, hnone, hclosed, -⟩ := receives_agree bus false { s with place := 3 }
  have hlast := hnone.mpr nofun
  exact ⟨hops, hcalls 0 _ rfl, hcalls 1 _ rfl, hcalls 2 _ rfl, hlast, (hclosed hlast).2.2⟩

end Subscription

end TextVault
