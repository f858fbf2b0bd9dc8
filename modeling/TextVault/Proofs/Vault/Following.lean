import TextVault.Proofs.Bus.Feed
import TextVault.Proofs.Key.Telling
import TextVault.Proofs.Vault.Run

/-
  Following the credential by the bus.

  Problem: a subscriber wants to know what is installed from the events alone. The bus may lose any of them,
  the only one of a withdrawal among them, and registration codes push the others out.

  Program: `Watch` is a vault with one subscriber. `Event.tells?` is what an event says of the credential.
  `Drained` marks the points at which a subscriber can be up to date: it has just come, or it has received
  until there was nothing.

  Spec: a run is to the subscriber what it notices of it (`feed_run`), and the events it notices tell of the
  changes of the credential, one by one (`tells_changes`). Between two such points a subscriber that has lost
  nothing was given all that are of its kind (`received_eq`), so it knows what is installed or how often it
  was withdrawn.
-/
namespace TextVault

/-- What an event tells of the credential. -/
def Event.tells? : Event → Option (Option Credential)
  | credentialInstalled c => some (some c)
  | credentialCleared => some none
  | challengeReceived _ => none

namespace Event

/-- Of the events that tell of the credential, those of a withdrawal tell that there is none. -/
theorem count_none_tells? (es : List Event) :
    (es.filterMap tells?).count none = es.count .credentialCleared := by
  induction es with
  | nil => rfl
  | cons e es ih =>
    cases e with
    | credentialInstalled c =>
      show (some c :: es.filterMap tells?).count none = _
      rw [List.count_cons_of_ne (by simp), ih, List.count_cons_of_ne (by simp)]
    | credentialCleared =>
      show (none :: es.filterMap tells?).count none = _
      rw [List.count_cons_self, ih, List.count_cons_self]
    | challengeReceived code =>
      show (es.filterMap tells?).count none = _
      rw [ih, List.count_cons_of_ne (by simp)]

theorem length_filter_cleared (es : List Event) :
    (es.filter (isOf (some .credentialCleared) ·)).length = es.count .credentialCleared := by
  have hcleared : (isOf (some .credentialCleared) ·) = (· == credentialCleared) := by
    funext e
    cases e with
    | credentialCleared => rfl
    | _ => rfl
  rw [hcleared, List.count, List.countP_eq_length_filter]

end Event

/-- A vault and a subscriber on its bus. -/
structure Watch where
  vault : Vault
  subscriber : Subscription

namespace Watch

/-- What can happen to a vault that is watched. Codes of others come on the bus as well, and are none of the
subscriber's business. -/
inductive Op where
  | vault (op : Vault.Op)
  /-- Somebody else publishes a code on the bus. -/
  | challenge (code : String)
  /-- The subscriber asks for the next event. -/
  | receive

/-- What an operation asks of the key cache. -/
def Op.key? : Op → Option KeyCache.Op
  | vault op => op.key?
  | _ => none

/-- Does an operation; gives what the subscriber gets, if it asks. -/
def step (w : Watch) : Op → Watch × List (Option Event)
  | .vault op => ({ w with vault := (w.vault.step op).1 }, [])
  | .challenge code =>
    ({ w with vault := w.vault.publishAll [.publish (.challengeReceived code)] }, [])
  | .receive =>
    let (event, subscriber) := w.subscriber.tryReceive w.vault.bus
    ({ w with subscriber }, [event])

/-- Does operations one after another; gives all that the subscriber gets. -/
def run (w : Watch) : List Op → Watch × List (Option Event)
  | [] => (w, [])
  | op :: ops =>
    let (w, answers) := w.step op
    let (w, more) := w.run ops
    (w, answers ++ more)

/-- The events that the subscriber is given. -/
def received (w : Watch) (ops : List Op) : List Event := (w.run ops).2.filterMap id

/-- The subscriber has just come, or the last thing it did was to ask in vain. -/
def Drained (w : Watch) (ops : List Op) : Prop :=
  ops = [] ∨ ops.getLast? = some .receive ∧ (w.run ops).2.getLast? = some none

/-- A vault just started whose bus keeps `n` events, and somebody who subscribes to all of them. -/
def start (v : Vault) (p : LockPolicy) (clock : Clock) (n : Nat) : Watch where
  vault := { v with keys := .start p clock, bus := .ofCapacity n }
  subscriber := .start (.ofCapacity n) none

/-- Somebody new comes in place of the subscriber. -/
def subscribe (w : Watch) (kind : Option EventKind) : Watch :=
  { w with subscriber := .start w.vault.bus kind }

/-- What the subscriber notices of an operation. -/
def noticesOf (w : Watch) : Op → List Notice
  | .vault op => (events (w.vault.step op).2.acts).map .arrival
  | .challenge code => [.arrival (.challengeReceived code)]
  | .receive => [.receive]

/-- What the subscriber notices of operations. -/
def notices (w : Watch) : List Op → List Notice
  | [] => []
  | op :: ops => w.noticesOf op ++ (w.step op).1.notices ops

/-- The events that operations publish. -/
def published (w : Watch) (ops : List Op) : List Event :=
  (w.notices ops).filterMap Notice.event?

/-- The subscriber with its bus. -/
def feed (w : Watch) : Feed := ⟨w.vault.bus, w.subscriber⟩

theorem run_cons (w : Watch) (op : Op) (ops : List Op) :
    w.run (op :: ops) = (((w.step op).1.run ops).1, (w.step op).2 ++ ((w.step op).1.run ops).2) := rfl

theorem run_append (w : Watch) (xs ys : List Op) :
    w.run (xs ++ ys) = (((w.run xs).1.run ys).1, (w.run xs).2 ++ ((w.run xs).1.run ys).2) := by
  induction xs generalizing w with
  | nil => rfl
  | cons op xs ih => rw [List.cons_append, run_cons, run_cons, ih, List.append_assoc]

/-- What is noticed in two stretches is noticed in the first and then from where the first has led. -/
theorem notices_append (w : Watch) (xs ys : List Op) :
    w.notices (xs ++ ys) = w.notices xs ++ (w.run xs).1.notices ys := by
  induction xs generalizing w with
  | nil => rfl
  | cons op xs ih => rw [List.cons_append, notices, notices, run_cons, ih, List.append_assoc]

theorem keyOps_cons (op : Op) (ops : List Op) :
    (op :: ops).filterMap Op.key? = op.key?.toList ++ ops.filterMap Op.key? := by
  rw [List.filterMap_cons]
  cases op.key? with
  | none => rfl
  | some keyOp => rfl

/-! ## What the subscriber notices -/

/-- Of events that are published the subscriber gets nothing yet. -/
theorem feed_arrivals (f : Feed) (es : List Event) :
    f.after (es.map .arrival) = { f with bus := es.foldl Channel.publish f.bus } ∧
      f.hears (es.map .arrival) = [] := by
  induction es generalizing f with
  | nil => exact ⟨rfl, rfl⟩
  | cons e es ih => exact ih (f.step (.arrival e))

/-- **The subscriber lives in the feed alone**: what it gets depends on the bus and on its place, not on the rest of
the vault. -/
theorem feed_step (w : Watch) (op : Op) :
    (w.step op).1.feed = w.feed.after (w.noticesOf op) ∧
      (w.step op).2 = (w.feed.hears (w.noticesOf op)).map Prod.fst := by
  cases op with
  | vault op =>
    obtain ⟨hafter, hhears⟩ := feed_arrivals w.feed (events (w.vault.step op).2.acts)
    rw [noticesOf, hafter, hhears]
    refine ⟨?_, rfl⟩
    show (⟨(w.vault.step op).1.bus, w.subscriber⟩ : Feed) = _
    rw [Vault.bus_step]
    rfl
  | challenge code => exact ⟨rfl, rfl⟩
  | receive => exact ⟨rfl, rfl⟩

/-- **What a run is to the subscriber is what it notices of it.** -/
theorem feed_run (w : Watch) (ops : List Op) :
    (w.run ops).1.feed = w.feed.after (w.notices ops) ∧
      (w.run ops).2 = (w.feed.hears (w.notices ops)).map Prod.fst := by
  induction ops generalizing w with
  | nil => exact ⟨rfl, rfl⟩
  | cons op ops ih =>
    obtain ⟨hfeed, hanswers⟩ := w.feed_step op
    obtain ⟨hlast, hmore⟩ := ih (w.step op).1
    rw [run_cons, notices, Feed.after_append, Feed.hears_append, List.map_append, ← hfeed,
      ← hanswers]
    exact ⟨hlast, congrArg _ hmore⟩

/-- So what it is given in a run can be told from what it notices. -/
theorem received_eq_hears (w : Watch) (ops : List Op) :
    w.received ops = (w.feed.hears (w.notices ops)).filterMap Prod.fst := by
  rw [received, (w.feed_run ops).2, List.filterMap_map]
  rfl

/-- Whoever is drained has noticed nothing, or was last asked in vain. -/
theorem Drained.feed {w : Watch} {ops : List Op} (h : w.Drained ops) :
    w.feed.Drained (w.notices ops) := by
  rcases h with rfl | ⟨hlast, hnone⟩
  · exact .inl rfl
  · obtain ⟨init, rfl⟩ := List.getLast?_eq_some_iff.mp hlast
    refine .inr ⟨w.notices init, w.notices_append init [.receive], ?_⟩
    rw [← (w.feed_run init).1]
    rw [run_append] at hnone
    exact Option.some.inj ((List.getLast?_concat ..).symm.trans hnone)

/-! ## What the events tell -/

theorem keys_step (w : Watch) (op : Op) :
    (w.step op).1.vault.keys = (w.vault.keys.run op.key?.toList).1 := by
  cases op with
  | vault op => exact w.vault.keys_step op
  | _ => rfl

/-- The key cache does what is asked of it, whoever watches. -/
theorem keys_run (w : Watch) (ops : List Op) :
    (w.run ops).1.vault.keys = (w.vault.keys.run (ops.filterMap Op.key?)).1 := by
  induction ops generalizing w with
  | nil => rfl
  | cons op ops ih => rw [run_cons, ih, keys_step, keyOps_cons, KeyCache.run_append]

/-- Of what an operation publishes, only the events of the key cache tell of the credential. -/
theorem tells_noticesOf (w : Watch) (op : Op) :
    ((w.noticesOf op).filterMap Notice.event?).filterMap Event.tells? =
      (events (w.vault.keys.run op.key?.toList).2).filterMap Event.tells? := by
  cases op with
  | vault op =>
    -- What an operation of the vault publishes is what its acts say.
    have hpublished : (w.noticesOf (.vault op)).filterMap Notice.event? =
        events (w.vault.step op).2.acts := by
      rw [noticesOf, List.filterMap_map]
      exact List.filterMap_some
    rw [hpublished]
    cases op with
    | keys op =>
      show _ = (events ((w.vault.keys.step op).2 ++ [])).filterMap Event.tells?
      rw [List.append_nil]
      rfl
    | receive p =>
      rw [Vault.outcome_receive]
      cases w.vault.terms.verdict p with
      | _ => rfl
    | _ => rfl
  | _ => rfl

/-- The events that tell of the credential are those of the key cache; a code tells of none. -/
theorem tells_published (w : Watch) (ops : List Op) :
    (w.published ops).filterMap Event.tells? =
      (events (w.vault.keys.run (ops.filterMap Op.key?)).2).filterMap Event.tells? := by
  induction ops generalizing w with
  | nil => rfl
  | cons op ops ih =>
    have hrest := ih (w.step op).1
    rw [published] at hrest
    rw [published, notices, List.filterMap_append, List.filterMap_append, tells_noticesOf, hrest,
      keys_step, keyOps_cons, KeyCache.run_append, events_append, List.filterMap_append]

/-- **The events of a run tell of the changes of the credential**, one by one and in order. -/
theorem tells_changes {w : Watch} (h : KeyCache.InOrder w.vault.keys) (ops : List Op) :
    (w.published ops).filterMap Event.tells? =
      (w.vault.keys.changes (ops.filterMap Op.key?)).map Change.after := by
  have hevent : ∀ change : Change, change.event.tells? = some change.after := by
    intro change
    cases change with
    | _ => rfl
  rw [tells_published, (h.tells_run _).events, List.filterMap_map]
  simp only [Function.comp_def, hevent]
  exact congrFun List.filterMap_eq_map' _

/-- What is installed is what the last event told, if any told of it. -/
theorem credential_run {w : Watch} (h : KeyCache.InOrder w.vault.keys) (ops : List Op) :
    (w.run ops).1.vault.keys.credential =
      ((w.published ops).filterMap Event.tells?).getLast?.getD w.vault.keys.credential := by
  rw [keys_run, (h.tells_run _).credential, Change.afterAll_eq_getLast?, tells_changes h,
    List.getLast?_map]

/-- There is one event for each withdrawal. -/
theorem count_cleared {w : Watch} (h : KeyCache.InOrder w.vault.keys) (ops : List Op) :
    (w.published ops).count .credentialCleared =
      w.vault.keys.withdrawals (ops.filterMap Op.key?) := by
  rw [← Event.count_none_tells?, tells_published, Event.count_none_tells?, (h.tells_run _).events,
    Change.count_credentialCleared, KeyCache.count_withdrawn_changes]

/-! ## From one point to the next -/

section Points

variable {w : Watch} {ops : List Op}

theorem kind_run (w : Watch) (ops : List Op) :
    (w.run ops).1.subscriber.kind = w.subscriber.kind :=
  (congrArg (·.subscriber.kind) (w.feed_run ops).1).trans (w.feed.kind_after _)

/-- Whoever has just come, or has asked in vain, has read everything. -/
theorem account_of_drained (h : w.subscriber.Awaits w.vault.bus []) (hops : w.Drained ops) :
    Account (w.run ops).1.feed.bus (w.run ops).1.feed.subscriber w.subscriber.missed
      (w.published ops) [] (w.received ops) (w.feed.leavesOut (w.notices ops)) := by
  rw [(w.feed_run ops).1, received_eq_hears]
  exact Feed.account_of_drained (.opened h) hops.feed

/-- **Who has lost nothing since was given everything of its kind.** -/
theorem received_eq (h : w.subscriber.Awaits w.vault.bus []) (hops : w.Drained ops)
    (hmissed : (w.run ops).1.subscriber.missed = w.subscriber.missed) :
    w.received ops = (w.published ops).filter (Event.isOf w.subscriber.kind ·) := by
  have hexact := (account_of_drained h hops).exact hmissed
  rw [Subscription.accepts_eq] at hexact
  rw [← kind_run w ops]
  exact hexact

/-- A subscriber to all events knows what is installed, if it has lost nothing. -/
theorem credential_of_received (hkeys : KeyCache.InOrder w.vault.keys)
    (h : w.subscriber.Awaits w.vault.bus []) (hops : w.Drained ops) (hkind : w.subscriber.kind = none)
    (hmissed : (w.run ops).1.subscriber.missed = w.subscriber.missed) :
    (w.run ops).1.vault.keys.credential =
      ((w.received ops).filterMap Event.tells?).getLast?.getD w.vault.keys.credential := by
  have hall : (w.published ops).filter (Event.isOf none ·) = w.published ops :=
    List.filter_eq_self.mpr fun _ _ => rfl
  rw [credential_run hkeys, received_eq h hops hmissed, hkind, hall]

end Points

/-! ## Anybody who follows -/

/-- Somebody who has just subscribed, after whatever went before. -/
def subscribed (v : Vault) (p : LockPolicy) (clock : Clock) (n : Nat) (before : List Op)
    (kind : Option EventKind) : Watch :=
  ((start v p clock n).run before).1.subscribe kind

section Subscribed

variable (v : Vault) (p : LockPolicy) (clock : Clock) (n : Nat) (before : List Op)
variable (kind : Option EventKind)

/-- A subscriber starts with nothing unread. -/
theorem awaits_subscribed :
    (subscribed v p clock n before kind).subscriber.Awaits
      (subscribed v p clock n before kind).vault.bus [] := by
  have hbus : ((start v p clock n).run before).1.vault.bus = _ :=
    congrArg (·.bus) ((start v p clock n).feed_run before).1
  have hcarries : ((start v p clock n).run before).1.vault.bus.Carries
      ([] ++ (start v p clock n).published before) := by
    rw [hbus, Feed.bus_after]
    exact (Channel.Carries.ofCapacity n).publishAll _
  exact .start hcarries kind

/-- The key cache is in order at every point of the watch. -/
theorem inOrder_of_subscribed (ops : List Op) :
    KeyCache.InOrder ((subscribed v p clock n before kind).run ops).1.vault.keys := by
  have hbefore : (subscribed v p clock n before kind).vault.keys =
      ((KeyCache.start p clock).run (before.filterMap Op.key?)).1 :=
    keys_run (start v p clock n) before
  rw [keys_run, hbefore]
  have hrun := KeyCache.InOrder.run p clock (before.filterMap Op.key? ++ ops.filterMap Op.key?)
  rw [KeyCache.run_append] at hrun
  exact hrun

end Subscribed

/-- **The bus is enough to follow the credential, as long as nothing is lost.** Of a subscription on a bus of
any capacity, made at any point of a run, take two points, each its beginning or one at which it has asked in
vain. If it has lost nothing between them, then a subscriber to all events knows from the last event that
tells of the credential what is installed, and without such an event that nothing has changed; and a
subscriber to withdrawals alone was given one event for each. So whoever is mistaken has lost something. -/
theorem follows_of_run (v : Vault) (p : LockPolicy) (clock : Clock) (n : Nat)
    (before first second : List Op) (kind : Option EventKind)
    (hfirst : (subscribed v p clock n before kind).Drained first)
    (hsecond : ((subscribed v p clock n before kind).run first).1.Drained second) :
    let w := ((subscribed v p clock n before kind).run first).1
    let w' := (w.run second).1
    let told := (w.received second).filterMap Event.tells?
    (w'.subscriber.missed = w.subscriber.missed →
      (kind = none →
        (∀ installed, told.getLast? = some installed → w'.vault.keys.credential = installed) ∧
        (told = [] → w'.vault.keys.credential = w.vault.keys.credential)) ∧
      (kind = some .credentialCleared →
        (w.received second).length = w.vault.keys.withdrawals (second.filterMap Op.key?))) ∧
    (kind = none → w'.vault.keys.credential ≠ told.getLast?.getD w.vault.keys.credential →
      w.subscriber.missed < w'.subscriber.missed) := by
  intro w w' told
  have hkeys : KeyCache.InOrder w.vault.keys := inOrder_of_subscribed v p clock n before kind first
  have hawaits : w.subscriber.Awaits w.vault.bus [] :=
    (account_of_drained (awaits_subscribed v p clock n before kind) hfirst).awaits
  have hkind : w.subscriber.kind = kind := kind_run _ first
  -- A subscriber to every event that missed nothing heard the last change of the credential.
  have hknows : kind = none → w'.subscriber.missed = w.subscriber.missed →
      w'.vault.keys.credential = told.getLast?.getD w.vault.keys.credential :=
    fun hall hmissed => credential_of_received hkeys hawaits hsecond (hkind.trans hall) hmissed
  refine ⟨fun hmissed => ⟨fun hall => ⟨fun installed hlast => ?_, fun hnone => ?_⟩, fun hcleared => ?_⟩,
    fun hall hmistaken => ?_⟩
  · rw [hknows hall hmissed, hlast]
    rfl
  · rw [hknows hall hmissed, hnone]
    rfl
  · rw [received_eq hawaits hsecond hmissed, hkind, hcleared, Event.length_filter_cleared,
      count_cleared hkeys]
  · -- The count of missed events never goes down, and it is not the same as before.
    have hle : w.subscriber.missed ≤ w'.subscriber.missed :=
      (account_of_drained hawaits hsecond).earlier_le
    have hne : w'.subscriber.missed ≠ w.subscriber.missed :=
      fun hmissed => hmistaken (hknows hall hmissed)
    omega

/-- Two codes push the only withdrawal off a bus that keeps two events; the subscriber, who was up to date
before, still has a credential in mind, but has missed something. -/
theorem follows_of_run_lost :
    let w := subscribed {} {} {} 2 [.vault (.keys (.create [7]))] none
    let first := [.vault (.keys (.install ⟨0⟩)), .receive, .receive]
    let second := [.vault (.keys .evict), .challenge "1", .challenge "2", .receive, .receive, .receive]
    w.Drained first ∧ (w.run first).1.Drained second ∧
      (w.run first).1.subscriber.missed < ((w.run first).1.run second).1.subscriber.missed := by
  intro w first second
  have hfirst : w.Drained first := .inr ⟨rfl, by decide +kernel⟩
  have hsecond : (w.run first).1.Drained second := .inr ⟨rfl, by decide +kernel⟩
  obtain ⟨-, hlost⟩ := follows_of_run {} {} {} 2 _ first second none hfirst hsecond
  exact ⟨hfirst, hsecond, hlost rfl (by decide +kernel)⟩

end Watch

end TextVault
