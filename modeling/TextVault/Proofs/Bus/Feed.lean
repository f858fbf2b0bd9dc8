import TextVault.Proofs.Bus.Account

/-
  One subscriber and its bus.

  Problem: whoever else is on a bus, all that a subscriber notices is that events arrive and that it is asked
  for the next one. What it is given is to be told from these two alone.

  Program: a `Feed` is a bus with one of its subscribers, and `Feed.after` does what a list of notices says.
  `hears` gives the outcome of each receive, and `leavesOut` the events that the receives read for
  nothing, for their kind.

  Spec: the account of the subscriber is kept through any notices (`exists_account_after`), and if the last
  of them is a receive in vain, nothing is left to be read (`account_of_drained`).
-/
namespace TextVault

/-- What one subscriber notices of what happens on a bus. -/
inductive Notice where
  | arrival (e : Event)
  /-- It is asked for the next event, waiting or not. -/
  | receive
  deriving DecidableEq, Repr

/-- The event that arrives, if one does. -/
def Notice.event? : Notice → Option Event
  | arrival e => some e
  | receive => none

/-- A bus and one of its subscribers. -/
structure Feed where
  bus : Bus
  subscriber : Subscription

namespace Feed

/-- What a notice makes of the two. -/
def step (f : Feed) : Notice → Feed
  | .arrival e => { f with bus := f.bus.publish e }
  | .receive => { f with subscriber := (f.subscriber.tryReceive f.bus).2 }

/-- What becomes of a feed by notices that come one after another. -/
def after (f : Feed) (notices : List Notice) : Feed := notices.foldl step f

/-- What the subscriber is given, if it is asked, and how many events were lost so far. -/
def hearsBy (f : Feed) : Notice → List (Option Event × Nat)
  | .arrival _ => []
  | .receive => [((f.subscriber.tryReceive f.bus).1, (f.subscriber.tryReceive f.bus).2.missed)]

/-- The outcomes of the receives, in order. -/
def hears (f : Feed) : List Notice → List (Option Event × Nat)
  | [] => []
  | notice :: notices => f.hearsBy notice ++ (f.step notice).hears notices

/-- The events that the subscriber reads and is not given, if it is asked. -/
def leavesOutBy (f : Feed) : Notice → List Event
  | .arrival _ => []
  | .receive => f.subscriber.leftOut f.bus

/-- The events that the receives leave out. -/
def leavesOut (f : Feed) : List Notice → List Event
  | [] => []
  | notice :: notices => f.leavesOutBy notice ++ (f.step notice).leavesOut notices

theorem after_cons (f : Feed) (notice : Notice) (notices : List Notice) :
    f.after (notice :: notices) = (f.step notice).after notices := rfl

theorem after_append (f : Feed) (xs ys : List Notice) :
    f.after (xs ++ ys) = (f.after xs).after ys := List.foldl_append

/-- What is heard in two stretches is heard in the first and then in the second, from where the first has left off. -/
theorem hears_append (f : Feed) (xs ys : List Notice) :
    f.hears (xs ++ ys) = f.hears xs ++ (f.after xs).hears ys := by
  induction xs generalizing f with
  | nil => rfl
  | cons notice xs ih => rw [List.cons_append, hears, hears, ih, after_cons, List.append_assoc]

theorem leavesOut_append (f : Feed) (xs ys : List Notice) :
    f.leavesOut (xs ++ ys) = f.leavesOut xs ++ (f.after xs).leavesOut ys := by
  induction xs generalizing f with
  | nil => rfl
  | cons notice xs ih =>
    rw [List.cons_append, leavesOut, leavesOut, ih, after_cons, List.append_assoc]

/-- A subscriber that has noticed nothing, or has last been asked in vain. -/
def Drained (f : Feed) (notices : List Notice) : Prop :=
  notices = [] ∨ ∃ init, notices = init ++ [.receive] ∧
    ((f.after init).subscriber.tryReceive (f.after init).bus).1 = none

/-- The bus changes by the events that arrive, and by nothing else. -/
theorem bus_after (f : Feed) (notices : List Notice) :
    (f.after notices).bus = (notices.filterMap Notice.event?).foldl Channel.publish f.bus := by
  induction notices generalizing f with
  | nil => rfl
  | cons notice notices ih =>
    rw [after_cons, ih]
    cases notice with
    | arrival e => rfl
    | receive => rfl

/-- A subscriber stays with its kind. -/
theorem kind_after (f : Feed) (notices : List Notice) :
    (f.after notices).subscriber.kind = f.subscriber.kind := by
  induction notices generalizing f with
  | nil => rfl
  | cons notice notices ih =>
    rw [after_cons, ih]
    cases notice with
    | arrival e => rfl
    | receive => exact f.subscriber.kind_tryReceive f.bus

/-! ## The account of the subscriber -/

/-- What a receive adds to what the subscriber is given. -/
theorem filterMap_hearsBy_receive (f : Feed) :
    (f.hearsBy .receive).filterMap Prod.fst = (f.subscriber.tryReceive f.bus).1.toList := by
  rw [hearsBy]
  cases (f.subscriber.tryReceive f.bus).1 with
  | none => rfl
  | some e => rfl

section Account

variable {f : Feed} {earlier : Nat} {read unread given out : List Event}

/-- One notice keeps the account. -/
theorem exists_account_step (h : Account f.bus f.subscriber earlier read unread given out)
    (notice : Notice) :
    ∃ read' unread', read' ++ unread' = read ++ unread ++ notice.event?.toList ∧
      Account (f.step notice).bus (f.step notice).subscriber earlier read' unread'
        (given ++ (f.hearsBy notice).filterMap Prod.fst) (out ++ f.leavesOutBy notice) := by
  cases notice with
  | arrival e =>
    refine ⟨read, unread ++ [e], (List.append_assoc ..).symm, ?_⟩
    show Account (f.bus.publish e) f.subscriber earlier read (unread ++ [e]) (given ++ []) (out ++ [])
    rw [List.append_nil, List.append_nil]
    exact h.publishAll [e]
  | receive =>
    obtain ⟨read', unread', hparts, -, haccount⟩ := h.receive
    rw [← filterMap_hearsBy_receive] at haccount
    exact ⟨read', unread', hparts.trans (List.append_nil _).symm, haccount⟩

/-- **Whatever a subscriber notices, its account is kept.** -/
theorem exists_account_after (h : Account f.bus f.subscriber earlier read unread given out)
    (notices : List Notice) :
    ∃ read' unread', read' ++ unread' = read ++ unread ++ notices.filterMap Notice.event? ∧
      Account (f.after notices).bus (f.after notices).subscriber earlier read' unread'
        (given ++ (f.hears notices).filterMap Prod.fst) (out ++ f.leavesOut notices) := by
  induction notices generalizing f read unread given out with
  | nil =>
    refine ⟨read, unread, (List.append_nil _).symm, ?_⟩
    show Account f.bus f.subscriber earlier read unread (given ++ []) (out ++ [])
    rw [List.append_nil, List.append_nil]
    exact h
  | cons notice notices ih =>
    obtain ⟨read₁, unread₁, hparts₁, h₁⟩ := exists_account_step h notice
    obtain ⟨read₂, unread₂, hparts₂, h₂⟩ := ih h₁
    have hevents : (notice :: notices).filterMap Notice.event? =
        notice.event?.toList ++ notices.filterMap Notice.event? := by
      cases notice with
      | arrival e => rfl
      | receive => rfl
    refine ⟨read₂, unread₂, ?_, ?_⟩
    · rw [hparts₂, hparts₁, hevents, List.append_assoc (read ++ unread)]
    · rw [hears, leavesOut, List.filterMap_append, ← List.append_assoc, ← List.append_assoc]
      exact h₂

/-- **Whoever is drained has read everything.** -/
theorem account_of_drained (h : Account f.bus f.subscriber earlier read [] given out)
    {notices : List Notice} (hdrained : f.Drained notices) :
    Account (f.after notices).bus (f.after notices).subscriber earlier
      (read ++ notices.filterMap Notice.event?) [] (given ++ (f.hears notices).filterMap Prod.fst)
      (out ++ f.leavesOut notices) := by
  rcases hdrained with rfl | ⟨init, rfl, hvain⟩
  · show Account f.bus f.subscriber earlier (read ++ []) [] (given ++ []) (out ++ [])
    rw [List.append_nil, List.append_nil, List.append_nil]
    exact h
  · -- The account after all but the last reading, and then the reading that found nothing more.
    obtain ⟨read₁, unread₁, hparts₁, h₁⟩ := exists_account_after h init
    obtain ⟨read₂, unread₂, hparts₂, hall, h₂⟩ := h₁.receive
    -- Nothing is left unread, so what was read is all that was published.
    have hread : read₂ = read ++ (init ++ [Notice.receive]).filterMap Notice.event? := by
      rw [hparts₁, hall hvain, List.append_nil, List.append_nil] at hparts₂
      rw [hparts₂, List.filterMap_append]
      exact congrArg (read ++ ·) (List.append_nil _).symm
    have hgiven : (f.hears (init ++ [.receive])).filterMap Prod.fst =
        (f.hears init).filterMap Prod.fst ++
          ((f.after init).subscriber.tryReceive (f.after init).bus).1.toList := by
      rw [hears_append, List.filterMap_append, ← filterMap_hearsBy_receive]
      rfl
    have hout : f.leavesOut (init ++ [.receive]) =
        f.leavesOut init ++ (f.after init).subscriber.leftOut (f.after init).bus := by
      rw [leavesOut_append]
      exact congrArg _ (List.append_nil _)
    rw [hall hvain] at h₂
    rw [after_append, hgiven, hout, ← hread, ← List.append_assoc, ← List.append_assoc]
    exact h₂

end Account

end Feed

end TextVault
