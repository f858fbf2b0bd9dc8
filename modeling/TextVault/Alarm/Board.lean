import TextVault.Alarm.Clock
import TextVault.Named

/-
  A board of alarms under names.

  Problem: who arms an alarm keeps a handle for cancelling it. A handle may be dropped, or lost when its
  name is used again, and neither touches the alarm.

  Program: `Board` is a clock with names for handles. After each operation the alarms that are due run,
  so one that is armed without a delay runs at once.

  Assumed, as for the clock: an operation is over when everything that it left to run has run, so a delay
  counts from the operation that arms the alarm, and a cancel comes before or after a callback, never
  within one.

  Spec: only `arm`, `cancel` and `advance` touch the clock.
-/
namespace TextVault

/-- A clock with names for the handles of its alarms, and the name each alarm was armed under. -/
structure Board where
  clock : Clock := { second := 1000 }
  handles : Named AlarmId := {}
  armedAs : List String := []

namespace Board

/-- What can happen to a board. An alarm is armed under a name, which from then on is that of its handle. -/
inductive Op where
  | arm (as : String) (delay : Nat)
  | cancel (handle : String)
  /-- Drops the handle. -/
  | forget (handle : String)
  | advance (ticks : Nat)
  deriving DecidableEq, Repr

/-- Does an operation, and nothing if no handle has the name. -/
def perform (b : Board) : Op → Board
  | .arm as delay =>
    let (id, clock) := b.clock.arm delay
    { clock, handles := b.handles.set as id, armedAs := b.armedAs ++ [as] }
  | .cancel handle =>
    match b.handles.get? handle with
    | some id => { b with clock := b.clock.cancel id }
    | none => b
  | .forget handle => { b with handles := b.handles.erase handle }
  | .advance ticks => { b with clock := b.clock.tick ticks }

/-- Does an operation and runs the alarms that are due; gives those that ran. -/
def step (b : Board) (op : Op) : Board × List AlarmId :=
  let b := b.perform op
  let (fired, clock) := b.clock.settle
  ({ b with clock }, fired)

/-- Does operations one after another. -/
def run (b : Board) : List Op → Board × List (List AlarmId)
  | [] => (b, [])
  | op :: ops =>
    let (b, fired) := b.step op
    let (b, more) := b.run ops
    (b, fired :: more)

/-- The name an alarm was armed under. -/
def nameOf (b : Board) (id : AlarmId) : String := (b.armedAs[id]?).getD ""

/-- Whether the alarm of each handle has been cancelled. -/
def cancelled (b : Board) : List (String × Bool) :=
  b.handles.entries.filterMap fun h => b.clock.alarms[h.2]?.map fun a => (h.1, a.isCancelled)

end Board

end TextVault
