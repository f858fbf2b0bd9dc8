/-
  One-shot alarms and the clock that runs them.

  Problem: an alarm is armed to run a callback after a delay and may be cancelled before. Its callback
  may also be run by hand, at any time and even after a cancel, and whoever arms alarms has to bear that.

  Program: `Clock` keeps every alarm ever armed, in arming order; an alarm is known by its place.
  `arm`, `cancel` and `take` change one alarm. `settle` takes the alarms that are due: not cancelled,
  not taken, and with a deadline that the clock has reached; `advance` moves the clock and settles.

  Assumed of the timers that this stands for: a delay counts from the moment of arming, not from a later one
  at which somebody first looks at the timer, and it is kept exactly, in whole ticks. The alarms that are
  due run after each operation and before the next, in arming order, and time stands still meanwhile.

  Spec: an alarm is taken at most once, and an alarm that is cancelled or taken never becomes due again.
-/
namespace TextVault

/-- One alarm; times are in ticks of the clock. -/
structure Alarm where
  armedAt : Nat
  delay : Nat
  isCancelled : Bool := false
  /-- Its callback has been run. -/
  isTaken : Bool := false
  deriving DecidableEq, Repr

namespace Alarm

/-- The time at which the callback is to run. -/
def deadline (a : Alarm) : Nat := a.armedAt + a.delay

/-- Still to run. -/
def isLive (a : Alarm) : Bool := !a.isCancelled && !a.isTaken

/-- To run at the given time or before. -/
def isDueAt (a : Alarm) (now : Nat) : Bool := a.isLive && a.deadline ≤ now

end Alarm

/-- An alarm is known by its place in arming order. -/
abbrev AlarmId := Nat

/-- The time, and every alarm ever armed. -/
structure Clock where
  now : Nat := 0
  alarms : List Alarm := []
  /-- How many ticks a second has. -/
  second : Nat := 1
  second_pos : 0 < second := by decide
  deriving DecidableEq, Repr

namespace Clock

/-- A length of time in ticks. -/
def ticks (c : Clock) (seconds : Nat) : Nat := seconds * c.second

/-- The clock before anything was armed. -/
def bare (c : Clock) : Clock := { c with alarms := [] }

/-- Arms an alarm. -/
def arm (c : Clock) (delay : Nat) : AlarmId × Clock :=
  (c.alarms.length, { c with alarms := c.alarms ++ [{ armedAt := c.now, delay }] })

/-- Cancels an alarm; one already cancelled or taken stays so. -/
def cancel (c : Clock) (id : AlarmId) : Clock :=
  { c with alarms := c.alarms.modify id fun a => { a with isCancelled := true } }

/-- Marks the callback of an alarm as run. -/
def take (c : Clock) (id : AlarmId) : Clock :=
  { c with alarms := c.alarms.modify id fun a => { a with isTaken := true } }

/-- Whether the callback of an alarm has still to be run by anybody. -/
def isUntaken (c : Clock) (id : AlarmId) : Bool :=
  match c.alarms[id]? with
  | some a => !a.isTaken
  | none => false

/-- The alarms that are due, in arming order. -/
def due (c : Clock) : List AlarmId :=
  (List.range c.alarms.length).filter fun id =>
    match c.alarms[id]? with
    | some a => a.isDueAt c.now
    | none => false

/-- The alarms that may still run, in arming order. -/
def live (c : Clock) : List AlarmId :=
  (List.range c.alarms.length).filter fun id =>
    match c.alarms[id]? with
    | some a => a.isLive
    | none => false

/-- Takes the alarms that are due. -/
def settle (c : Clock) : List AlarmId × Clock := (c.due, c.due.foldl take c)

/-- Moves the clock on without running anything. -/
def tick (c : Clock) (ticks : Nat) : Clock := { c with now := c.now + ticks }

/-- Moves the clock on and takes the alarms that are due then. -/
def advance (c : Clock) (ticks : Nat) : List AlarmId × Clock := (c.tick ticks).settle

/-- Only `tick` lets time pass: arming, cancelling and taking an alarm all happen in an instant. -/
@[simp] theorem now_arm (c : Clock) (delay : Nat) : (c.arm delay).2.now = c.now := rfl

@[simp] theorem now_cancel (c : Clock) (id : AlarmId) : (c.cancel id).now = c.now := rfl

@[simp] theorem now_take (c : Clock) (id : AlarmId) : (c.take id).now = c.now := rfl

@[simp] theorem length_cancel (c : Clock) (id : AlarmId) :
    (c.cancel id).alarms.length = c.alarms.length := by simp [cancel]

@[simp] theorem length_take (c : Clock) (id : AlarmId) :
    (c.take id).alarms.length = c.alarms.length := by simp [take]

end Clock

end TextVault
