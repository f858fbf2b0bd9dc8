import TextVault.Bus.Hall
import TextVault.Proofs.Bus.Inbox

/-
  What a subscriber of a hall is given.

  Problem: subscribers come, go and receive in any order while events are published. Each of them is to be
  given its events in order and once, to know how many it has lost, and to be none the worse for the others.

  Program: a subscription is what a name stands for until the name is used again (`Op.spares`). `heard`
  reads the outcomes of its receives off a run, and `leftOut` the events they read for nothing, for their
  kind. `Op.notice` is what one subscriber notices of an operation.

  Spec: an operation is a receive of the subscriber, an event, or nothing to it (`step_of_receive`,
  `step_of_other`). So a run is to one subscriber what it notices of it (`Hosts.run`); its account and its
  inbox tell what it is given.
-/
namespace TextVault.Hall

/-! ## One subscriber among others -/

/-- A hall whose bus keeps `n` events, rounded up to a power of two. -/
def ofCapacity (n : Nat) : Hall := { bus := .ofCapacity n }

/-- The event that an operation publishes. -/
def Op.event? : Op → Option Event
  | .publish e => some e
  | _ => none

/-- Whether a name stands for the same subscriber afterwards. -/
def Op.spares (name : String) : Op → Bool
  | .subscribe as _ => as != name
  | .unsubscribe gone => gone != name
  | _ => true

/-- Whether the subscriber of a name is asked for an event, waiting or not. -/
def Op.asks (name : String) : Op → Bool
  | .tryReceive asked => asked == name
  | .poll asked => asked == name
  | _ => false

/-- What the subscriber of a name notices. -/
def Op.notice (name : String) (op : Op) : Option Notice :=
  if op.asks name then some .receive else op.event?.map .arrival

/-- The event that a receive gives, if it gives one, and how many were lost so far. -/
def Answer.outcome? : Answer → Option (Option Event × Nat)
  | .received e missed => some (e, missed)
  | .polled (.event e) missed => some (some e, missed)
  | .polled _ missed => some (none, missed)
  | _ => none

/-- The outcomes of the receives of a name. -/
def heard (name : String) (ops : List Op) (answers : List Answer) : List (Option Event × Nat) :=
  (ops.zip answers).filterMap fun x => if x.1.asks name then x.2.outcome? else none

/-- The events that the receives of a name read and leave out. -/
def leftOut (name : String) (h : Hall) : List Op → List Event
  | [] => []
  | op :: ops =>
    (if op.asks name then (h.subscribers.get? name).elim [] (·.leftOut h.bus) else []) ++
      leftOut name (h.step op).1 ops

theorem run_cons (h : Hall) (op : Op) (ops : List Op) :
    h.run (op :: ops) = (((h.step op).1.run ops).1, (h.step op).2 :: ((h.step op).1.run ops).2) := rfl

theorem run_append (h : Hall) (xs ys : List Op) :
    h.run (xs ++ ys) = (((h.run xs).1.run ys).1, (h.run xs).2 ++ ((h.run xs).1.run ys).2) := by
  induction xs generalizing h with
  | nil => rfl
  | cons op xs ih => rw [List.cons_append, run_cons, run_cons, ih, List.cons_append]

/-- What a subscriber hears in a session is what its first operation tells it, if it is its own, and what the rest
does. -/
theorem heard_cons (name : String) (op : Op) (ops : List Op) (answer : Answer)
    (answers : List Answer) :
    heard name (op :: ops) (answer :: answers) =
      (if op.asks name then answer.outcome? else none).toList ++ heard name ops answers := by
  rw [heard, List.zip_cons_cons, List.filterMap_cons]
  split
  · next hnone => rw [hnone]; rfl
  · next outcome hsome => rw [hsome]; rfl

/-! ## One operation -/

/-- The bus of a hall changes by the events published, and by nothing else. -/
theorem bus_step (h : Hall) (op : Op) :
    (h.step op).1.bus = op.event?.toList.foldl Channel.publish h.bus := by
  cases op with
  | tryReceive asked =>
    rw [step]
    cases h.subscribers.get? asked with
    | none => rfl
    | some s => rfl
  | poll asked =>
    rw [step]
    cases h.subscribers.get? asked with
    | none => rfl
    | some s => rfl
  | _ => rfl

/-- **The bus knows nothing of its readers.** Whatever else goes on, it is what the published events make of it. -/
theorem bus_run (h : Hall) (ops : List Op) :
    (h.run ops).1.bus = (ops.filterMap Op.event?).foldl Channel.publish h.bus := by
  induction ops generalizing h with
  | nil => rfl
  | cons op ops ih =>
    rw [run_cons, ih, bus_step, List.filterMap_cons]
    cases op.event? with
    | none => rfl
    | some e => rfl

theorem capacity_step (h : Hall) (op : Op) : (h.step op).1.bus.capacity = h.bus.capacity := by
  rw [bus_step, Channel.capacity_publishAll]

section Step

variable {h : Hall} {name : String} {s : Subscription} {op : Op}

/-- A receive publishes nothing. -/
theorem event?_of_asks (hasks : op.asks name = true) : op.event? = none := by
  cases op with
  | publish e => nomatch hasks
  | _ => rfl

/-- A receive of the subscriber, waiting or not. -/
theorem step_of_receive (hs : h.subscribers.get? name = some s) (hasks : op.asks name = true) :
    (h.step op).1.subscribers.get? name = some (s.tryReceive h.bus).2 ∧
      (h.step op).2.outcome? = some ((s.tryReceive h.bus).1, (s.tryReceive h.bus).2.missed) := by
  cases op with
  | tryReceive asked =>
    obtain rfl := eq_of_beq hasks
    rw [step, hs]
    exact ⟨by rw [Named.get?_set, if_pos rfl], rfl⟩
  | poll asked =>
    obtain rfl := eq_of_beq hasks
    rw [step, hs]
    simp only [Subscription.poll_eq]
    refine ⟨by rw [Named.get?_set, if_pos rfl], ?_⟩
    cases (s.tryReceive h.bus).1 with
    | none => cases h.isOpen <;> rfl
    | some e => rfl
  | _ => nomatch hasks

/-- **The others are no concern of the subscriber.** Whatever is not a receive of its own leaves it as it
is. -/
theorem step_of_other (hs : h.subscribers.get? name = some s) (hspares : op.spares name = true)
    (hasks : op.asks name = false) : (h.step op).1.subscribers.get? name = some s := by
  cases op with
  | subscribe as kind =>
    have hne : name ≠ as := (bne_iff_ne.mp hspares).symm
    show (h.subscribers.set as _).get? name = some s
    rw [Named.get?_set, if_neg hne, hs]
  | unsubscribe gone =>
    have hne : name ≠ gone := (bne_iff_ne.mp hspares).symm
    show (h.subscribers.erase gone).get? name = some s
    rw [Named.get?_erase, if_neg hne, hs]
  | publish e => exact hs
  -- Who asks is put back under its own name, and that is another one.
  | tryReceive asked =>
    have hne : name ≠ asked := (beq_eq_false_iff_ne.mp hasks).symm
    rw [step]
    cases h.subscribers.get? asked with
    | none => exact hs
    | some other => exact (Named.get?_set ..).trans ((if_neg hne).trans hs)
  | poll asked =>
    have hne : name ≠ asked := (beq_eq_false_iff_ne.mp hasks).symm
    rw [step]
    cases h.subscribers.get? asked with
    | none => exact hs
    | some other => exact (Named.get?_set ..).trans ((if_neg hne).trans hs)
  | close => exact hs

/-! ### What one operation adds to what the subscriber hears -/

/-- An operation of the subscriber's own tells it the event read, if there was one, and how many it has missed
so far. -/
theorem heard_of_receive (hs : h.subscribers.get? name = some s) (hasks : op.asks name = true) :
    heard name [op] [(h.step op).2] = [((s.tryReceive h.bus).1, (s.tryReceive h.bus).2.missed)] := by
  rw [heard_cons, if_pos hasks, (step_of_receive hs hasks).2]
  rfl

theorem heard_of_other (hasks : op.asks name = false) (answer : Answer) :
    heard name [op] [answer] = [] := by
  rw [heard_cons, hasks]
  rfl

/-- What it passes over are the events of other kinds in front of the one it reads. -/
theorem leftOut_of_receive (hs : h.subscribers.get? name = some s) (hasks : op.asks name = true) :
    h.leftOut name [op] = s.leftOut h.bus := by
  rw [leftOut, if_pos hasks, hs]
  exact List.append_nil _

theorem leftOut_of_other (hasks : op.asks name = false) : h.leftOut name [op] = [] := by
  rw [leftOut, hasks]
  rfl

/-- The subscriber of a name, and the bus it is on. -/
structure Hosts (h : Hall) (name : String) (f : Feed) : Prop where
  bus : h.bus = f.bus
  subscriber : h.subscribers.get? name = some f.subscriber

/-- **What an operation is to one subscriber is what it notices of it.** -/
theorem Hosts.step {f : Feed} (hf : h.Hosts name f) (hspares : op.spares name = true) :
    (h.step op).1.Hosts name (f.after (op.notice name).toList) ∧
      heard name [op] [(h.step op).2] = f.hears (op.notice name).toList ∧
      h.leftOut name [op] = f.leavesOut (op.notice name).toList := by
  obtain ⟨hbus, hs⟩ := hf
  rw [Op.notice]
  cases hasks : op.asks name with
  | true =>
    have hbus' : (h.step op).1.bus = f.bus := by
      rw [bus_step, event?_of_asks hasks]
      exact hbus
    rw [heard_of_receive hs hasks, leftOut_of_receive hs hasks, hbus]
    refine ⟨⟨hbus', ?_⟩, rfl, (List.append_nil _).symm⟩
    rw [(step_of_receive hs hasks).1, hbus]
    rfl
  | false =>
    rw [heard_of_other hasks, leftOut_of_other hasks]
    have hs' := step_of_other hs hspares hasks
    have hbus' := bus_step h op
    rw [hbus] at hbus'
    cases hevent : op.event? with
    | none => rw [hevent] at hbus'; exact ⟨⟨hbus', hs'⟩, rfl, rfl⟩
    | some e => rw [hevent] at hbus'; exact ⟨⟨hbus', hs'⟩, rfl, rfl⟩

/-- A subscriber notices of the events what is published. -/
theorem Op.event?_notice (op : Op) (name : String) :
    (op.notice name).bind Notice.event? = op.event? := by
  rw [notice]
  cases hasks : op.asks name with
  | true =>
    rw [event?_of_asks hasks]
    rfl
  | false =>
    cases op.event? with
    | none => rfl
    | some e => rfl

end Step

/-! ## A run -/

section Run

variable {name : String} {h : Hall} {f : Feed} {ops : List Op}

/-- The first operation and the rest, for a session that is really run. -/
theorem heard_cons_run (name : String) (h : Hall) (op : Op) (ops : List Op) :
    heard name (op :: ops) (h.run (op :: ops)).2 =
      heard name [op] [(h.step op).2] ++ heard name ops ((h.step op).1.run ops).2 := by
  rw [run_cons, heard_cons, heard_cons, List.append_assoc]
  rfl

theorem leftOut_cons (name : String) (h : Hall) (op : Op) (ops : List Op) :
    h.leftOut name (op :: ops) = h.leftOut name [op] ++ (h.step op).1.leftOut name ops := by
  rw [leftOut, leftOut, List.append_assoc]
  rfl

/-- What a subscriber notices includes every event published, whatever else it notices. -/
theorem filterMap_event?_notice (name : String) (ops : List Op) :
    (ops.filterMap (Op.notice name)).filterMap Notice.event? = ops.filterMap Op.event? := by
  simp only [List.filterMap_filterMap, Op.event?_notice]

/-- **What a run is to one subscriber is what it notices of it.** -/
theorem Hosts.run (hf : h.Hosts name f) (hops : ∀ op ∈ ops, op.spares name = true) :
    (h.run ops).1.Hosts name (f.after (ops.filterMap (Op.notice name))) ∧
      heard name ops (h.run ops).2 = f.hears (ops.filterMap (Op.notice name)) ∧
      h.leftOut name ops = f.leavesOut (ops.filterMap (Op.notice name)) := by
  induction ops generalizing h f with
  | nil => exact ⟨hf, rfl, rfl⟩
  | cons op ops ih =>
    obtain ⟨hspares, hrest⟩ := List.forall_mem_cons.mp hops
    obtain ⟨hf', hheard, hleft⟩ := hf.step hspares
    obtain ⟨hlast, hheard', hleft'⟩ := ih hf' hrest
    -- An operation brings the feed one notice at most.
    have hnotices : (op :: ops).filterMap (Op.notice name) =
        (op.notice name).toList ++ ops.filterMap (Op.notice name) := by
      rw [List.filterMap_cons]
      cases op.notice name with
      | none => rfl
      | some notice => rfl
    rw [hnotices, Feed.after_append, Feed.hears_append, Feed.leavesOut_append, heard_cons_run,
      leftOut_cons, hheard, hleft, hheard', hleft']
    exact ⟨hlast, rfl, rfl⟩

end Run

/-! ## The life of a subscription -/

/-- A hall in which a name has just subscribed, after whatever went before. -/
def subscribed (n : Nat) (before : List Op) (name : String) (kind : Option EventKind) : Hall :=
  ((ofCapacity n).run (before ++ [.subscribe name kind])).1

section Subscribed

variable (n : Nat) (before : List Op) (name : String) (kind : Option EventKind)

/-- To be subscribed is the end of a session whose last operation subscribes. -/
theorem subscribed_eq :
    subscribed n before name kind =
      (((ofCapacity n).run before).1.step (.subscribe name kind)).1 := by
  rw [subscribed, run_append]
  rfl

/-- The new subscriber, and the bus as it is then. -/
def feedOf : Feed where
  bus := (subscribed n before name kind).bus
  subscriber := .start (subscribed n before name kind).bus kind

/-- **A new subscriber starts with nothing unread**, whatever was published before it came. -/
theorem hosts_subscribed :
    (subscribed n before name kind).Hosts name (feedOf n before name kind) := by
  refine ⟨rfl, ?_⟩
  rw [feedOf, subscribed_eq]
  exact (Named.get?_set ..).trans (if_pos rfl)

/-- The capacity is the one the hall was made with, rounded. -/
theorem capacity_subscribed :
    (subscribed n before name kind).bus.capacity = channelCapacity n := by
  rw [subscribed_eq, capacity_step, bus_run, Channel.capacity_publishAll]
  rfl

/-- Whatever went before, a new subscriber has nothing to read. -/
theorem awaits_feedOf :
    (feedOf n before name kind).subscriber.Awaits (feedOf n before name kind).bus [] := by
  have hcarries : ((ofCapacity n).run before).1.bus.Carries ([] ++ before.filterMap Op.event?) := by
    rw [bus_run]
    exact (Channel.Carries.ofCapacity n).publishAll _
  rw [feedOf, subscribed_eq]
  exact .start hcarries kind

end Subscribed

/-- **Every event once and in order, every loss counted, and nobody else matters.** Of the life of a
subscription on a bus of any capacity, whatever its name was used for before: the events returned are among
those published since that are of its kind, in order. The next receive loses what exceeds the capacity of
what was not read, and goes on with the oldest kept event; if it gives no event, those returned, those left
out and those lost make up all that was published. And any two subscriptions that notice the same are given
the same and miss the same. -/
theorem delivered_of_run (n : Nat) (before ops : List Op) (name : String) (kind : Option EventKind)
    (hops : ∀ op ∈ ops, op.spares name = true) :
    let first := subscribed n before name kind
    let h := (first.run ops).1
    let published := ops.filterMap Op.event?
    let outcomes := heard name ops (first.run ops).2
    let returned := outcomes.filterMap Prod.fst
    let left := first.leftOut name ops
    returned.Sublist (published.filter (Event.isOf kind ·)) ∧
    (∃ s, h.subscribers.get? name = some s ∧ ∀ call : Op, call.asks name = true →
      let read := returned.length + left.length + s.missed
      let lost := published.length - read - channelCapacity n
      ∃ event, (h.step call).2.outcome? = some (event, s.missed + lost) ∧
        event = (published.drop (read + lost)).find? (Event.isOf kind ·) ∧
        (channelCapacity n ≤ published.length - read →
          published.drop (read + lost) = h.bus.kept) ∧
        (event = none →
          returned.length + (left ++ h.leftOut name [call]).length + (s.missed + lost) =
            published.length)) ∧
    (∀ before' ops', (∀ op ∈ ops', op.spares name = true) →
      ops'.filterMap (Op.notice name) = ops.filterMap (Op.notice name) →
      heard name ops' ((subscribed n before' name kind).run ops').2 = outcomes) := by
  intro first h published outcomes returned left
  -- The subscriber with its bus is a feed, and what it hears depends on what it notices only.
  have hawaits := awaits_feedOf n before name kind
  obtain ⟨hhosts, hheard, hleft⟩ := (hosts_subscribed n before name kind).run hops
  obtain ⟨read, unread, hparts, haccount⟩ :=
    Feed.exists_account_after (.opened hawaits) (ops.filterMap (Op.notice name))
  rw [filterMap_event?_notice] at hparts
  have hkind := (feedOf n before name kind).kind_after (ops.filterMap (Op.notice name))
  rw [← hheard, ← hleft, ← hhosts.bus] at haccount
  have hs := hhosts.subscriber
  generalize ((feedOf n before name kind).after (ops.filterMap (Op.notice name))).subscriber = s
    at hs hkind haccount
  -- What was published is what has been read, passed over or lost, and what is still unread.
  have hpublished : published = read ++ unread := hparts.symm
  have hcount : returned.length + left.length + s.missed = read.length :=
    haccount.count.trans (Nat.zero_add _)
  have haccepts : s.accepts = (Event.isOf kind ·) := by rw [Subscription.accepts_eq, hkind]; rfl
  have hcapacity : h.bus.capacity = channelCapacity n := by
    show (first.run ops).1.bus.capacity = _
    rw [bus_run, Channel.capacity_publishAll]
    exact capacity_subscribed n before name kind
  refine ⟨?_, ⟨s, hs, ?_⟩, ?_⟩
  · -- In order and at most once: what was returned is a part of what has been read.
    have hown : returned.Sublist (read.filter s.accepts) := haccount.own
    rw [haccepts] at hown
    rw [hpublished, List.filter_append]
    exact hown.trans (List.sublist_append_left _ _)
  · -- The next call: what exceeds the capacity is lost, and the first of its kind behind that is given.
    intro call hcall readSoFar lost
    obtain ⟨hmissed, hevent, hkept, hclosed⟩ := haccount.receive_eq
    have hread : readSoFar = read.length := hcount
    have hbehind : published.length - readSoFar = unread.length := by
      rw [hread, hpublished, List.length_append]
      exact Nat.add_sub_cancel_left ..
    have hlost : lost = unread.length - h.bus.capacity := by rw [hcapacity, ← hbehind]
    rw [haccepts] at hevent
    rw [hbehind, hread, hlost, ← hcapacity, hpublished]
    refine ⟨(s.tryReceive h.bus).1, ?_, hevent, hkept, fun hnone => ?_⟩
    · rw [(step_of_receive hs hcall).2, hmissed]
    · rw [leftOut_of_receive hs hcall]
      exact (hclosed hnone).trans (Nat.zero_add _)
  · -- Others make no difference: two feeds that mirror the same inbox hear the same.
    intro before' ops' hops' hnotices
    have hmirrors : ∀ before, (feedOf n before name kind).subscriber.Mirrors
        (feedOf n before name kind).bus { kind } :=
      fun before => ⟨awaits_feedOf n before name kind, rfl, rfl⟩
    have hcapacities : ∀ before, (feedOf n before name kind).bus.capacity = channelCapacity n :=
      fun before => capacity_subscribed n before name kind
    obtain ⟨-, hheard', -⟩ := (hosts_subscribed n before' name kind).run hops'
    show heard name ops' _ = heard name ops (first.run ops).2
    rw [hheard', hheard, (hmirrors before').hears_eq, (hmirrors before).hears_eq, hcapacities,
      hcapacities, hnotices]

/-- Of three codes on a bus that keeps two, the first is lost and the second is given. -/
theorem delivered_of_run_overflow :
    let ops := [.publish (.challengeReceived "1"), .publish (.challengeReceived "2"),
      .publish (.challengeReceived "3")]
    (∀ op ∈ ops, Op.spares "a" op = true) ∧
      (((subscribed 2 [] "a" none).run ops).1.step (.tryReceive "a")).2.outcome? =
        some (some (.challengeReceived "2"), 1) := by
  intro ops
  have hops : ∀ op ∈ ops, Op.spares "a" op = true := by decide
  obtain ⟨-, ⟨s, hs, hreceive⟩, -⟩ := delivered_of_run 2 [] ops "a" none hops
  have hfresh : s = { kind := none, place := 0 } := Option.some.inj (hs.symm.trans (by decide +kernel))
  obtain ⟨event, houtcome, hevent, -⟩ := hreceive (.tryReceive "a") rfl
  refine ⟨hops, ?_⟩
  rw [houtcome, hevent, hfresh]
  decide +kernel

end TextVault.Hall
