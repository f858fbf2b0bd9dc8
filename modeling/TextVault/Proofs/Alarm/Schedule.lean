import Mathlib.Data.List.TakeWhile
import TextVault.Alarm.Board
import TextVault.Proofs.Alarm.Settling

/-
  Schedules of operations on a board of alarms.

  Problem: alarms are armed, cancelled and run in any order while time goes by, and the names of their
  handles are dropped and used again.

  Program: `after` is the board after a schedule of operations, `fired` the alarms that ran meanwhile. A
  handle is `held` until its name is dropped or used again.

  Spec: an operation does nothing to an alarm but cancel it (`getElem?_step`), and runs it if it is due then
  (`mem_step`). No alarm runs twice (`nodup_fired`), what cannot run may be cancelled without being noticed
  (`run_cancel`), and time may go by in pieces (`run_advances`).
-/
namespace TextVault.Board

namespace Op

/-- How long an operation takes. -/
def ticks : Op → Nat
  | .advance ticks => ticks
  | _ => 0

/-- Whether a name still stands for the same handle after an operation. -/
def spares (name : String) : Op → Bool
  | .arm as _ => as != name
  | .forget handle => handle != name
  | _ => true

end Op

/-- How long operations take. -/
def elapsed : List Op → Nat
  | [] => 0
  | op :: ops => op.ticks + elapsed ops

/-- To let time go by in pieces. -/
def advances (pieces : List Nat) : List Op := pieces.map .advance

/-- The operations done while a name stands for the same handle. -/
def held (name : String) (ops : List Op) : List Op := ops.takeWhile (Op.spares name)

/-- The board after operations, from an empty one. -/
def after (ops : List Op) : Board := (({} : Board).run ops).1

/-- The alarms that run in the course of operations, from an empty board. -/
def fired (ops : List Op) : List AlarmId := (({} : Board).run ops).2.flatten

variable {b : Board} {op : Op} {id : AlarmId} {name : String}

/-! ## Schedules -/

/-- The time that two sessions take is the sum of what each takes. -/
theorem elapsed_append (xs ys : List Op) : elapsed (xs ++ ys) = elapsed xs + elapsed ys := by
  induction xs with
  | nil => exact (Nat.zero_add _).symm
  | cons x xs ih => rw [List.cons_append, elapsed, elapsed, ih, Nat.add_assoc]

theorem elapsed_concat (ops : List Op) (op : Op) : elapsed (ops ++ [op]) = elapsed ops + op.ticks :=
  elapsed_append ops [op]

/-- As long as no operation touches its name, a handle is kept throughout. -/
theorem held_of_spares {ops : List Op} (h : ∀ op ∈ ops, op.spares name = true) : held name ops = ops :=
  List.takeWhile_eq_self_iff.mpr h

/-- An operation comes while the handle is kept if it is the first one, or one after a first that leaves the name
alone. -/
theorem mem_held_cons {first : Op} {ops : List Op} :
    op ∈ held name (first :: ops) ↔ first.spares name = true ∧ (op = first ∨ op ∈ held name ops) := by
  cases h : first.spares name <;> simp [held, h]

/-- Of two stretches, the second counts only if the whole of the first has left the name alone. -/
theorem mem_held_append {xs ys : List Op} :
    op ∈ held name (xs ++ ys) ↔
      op ∈ held name xs ∨ (∀ x ∈ xs, x.spares name = true) ∧ op ∈ held name ys := by
  induction xs with
  | nil => simp [held]
  | cons x xs ih =>
    rw [List.cons_append, mem_held_cons, mem_held_cons, ih, List.forall_mem_cons, ← or_assoc, and_or_left,
      and_assoc]

/-- Two sessions one after the other are one session, with the alarms that ran told in the same order. -/
theorem run_append (b : Board) (xs ys : List Op) :
    b.run (xs ++ ys) = (((b.run xs).1.run ys).1, (b.run xs).2 ++ ((b.run xs).1.run ys).2) := by
  induction xs generalizing b with
  | nil => rfl
  | cons x xs ih => simp only [List.cons_append, run, ih]

theorem after_append (xs ys : List Op) : after (xs ++ ys) = ((after xs).run ys).1 := by
  rw [after, run_append, after]

theorem after_concat (ops : List Op) (op : Op) : after (ops ++ [op]) = ((after ops).step op).1 :=
  after_append ops [op]

theorem fired_append (xs ys : List Op) : fired (xs ++ ys) = fired xs ++ ((after xs).run ys).2.flatten := by
  rw [fired, run_append, List.flatten_append, fired, after]

theorem fired_concat (ops : List Op) (op : Op) : fired (ops ++ [op]) = fired ops ++ ((after ops).step op).2 := by
  rw [fired_append]
  simp [run]

/-! ## What one operation does -/

/-- Whether an operation cancels an alarm, through the handle that its name stands for. -/
def cancels (b : Board) (id : AlarmId) : Op → Bool
  | .cancel handle => b.handles.get? handle == some id
  | _ => false

/-- Only an advance moves the time, and by its own ticks. -/
theorem now_perform (b : Board) (op : Op) : (b.perform op).clock.now = b.clock.now + op.ticks := by
  cases op with
  | arm | forget | advance => rfl
  | cancel handle =>
    rw [perform]
    split <;> rfl

@[simp] theorem now_step (b : Board) (op : Op) : (b.step op).1.clock.now = b.clock.now + op.ticks := by
  show (b.perform op).clock.settle.2.now = _
  rw [Clock.now_settle, now_perform]

/-- So the time is how long the session has taken. -/
theorem now_run (b : Board) (ops : List Op) : (b.run ops).1.clock.now = b.clock.now + elapsed ops := by
  induction ops generalizing b with
  | nil => rfl
  | cons op ops ih =>
    show ((b.step op).1.run ops).1.clock.now = _
    rw [ih, now_step, elapsed, Nat.add_assoc]

/-- An operation does nothing to an alarm but cancel it. -/
theorem getElem?_perform (op : Op) (h : id < b.clock.alarms.length) :
    (b.perform op).clock.alarms[id]? =
      (b.clock.alarms[id]?).map fun a => { a with isCancelled := a.isCancelled || b.cancels id op } := by
  cases op with
  | arm as delay =>
    show (b.clock.arm delay).2.alarms[id]? = _
    rw [Clock.getElem?_arm, if_neg (Nat.ne_of_lt h)]
    simp [cancels]
  | cancel handle =>
    rw [perform, cancels]
    cases hget : b.handles.get? handle with
    | none => simp
    | some other =>
      show (b.clock.cancel other).alarms[id]? = _
      rw [Clock.getElem?_cancel]
      -- A handle may stand for another alarm, which leaves this one alone.
      by_cases heq : other = id
      · simp [heq]
      · have hne : (other == id) = false := by simpa using heq
        simp [heq, hne]
  | forget | advance => simp [perform, cancels]

/-- **What a step does to an alarm that is there**: it is cancelled if the operation cancels it, and then run if its
deadline has come, in this order. -/
theorem getElem?_step (op : Op) (h : id < b.clock.alarms.length) :
    (b.step op).1.clock.alarms[id]? =
      (b.clock.alarms[id]?).map fun a =>
        { a with isCancelled := a.isCancelled || b.cancels id op }.settled (b.clock.now + op.ticks) := by
  show (b.perform op).clock.settle.2.alarms[id]? = _
  rw [Clock.alarms_settle, List.getElem?_map, getElem?_perform op h, now_perform, Option.map_map]
  rfl

/-- An alarm runs in a step if it is due after the operation. -/
theorem mem_step (op : Op) (h : id < b.clock.alarms.length) :
    id ∈ (b.step op).2 ↔ ∃ a, b.clock.alarms[id]? = some a ∧
      { a with isCancelled := a.isCancelled || b.cancels id op }.isDueAt (b.clock.now + op.ticks) = true := by
  show id ∈ (b.perform op).clock.due ↔ _
  rw [Clock.mem_due, getElem?_perform op h, now_perform]
  cases b.clock.alarms[id]? <;> simp

/-- No alarm is ever forgotten, so places stay what they are. -/
theorem length_le_step (b : Board) (op : Op) : b.clock.alarms.length ≤ (b.step op).1.clock.alarms.length := by
  show _ ≤ (b.perform op).clock.settle.2.alarms.length
  rw [Clock.length_settle]
  cases op with
  | arm as delay => simp [perform, Clock.arm]
  | cancel handle =>
    rw [perform]
    split <;> simp
  | forget | advance => exact Nat.le_refl _

/-- A handle of an alarm stays its handle until its name is dropped or used again. -/
theorem get?_step (op : Op) (h : id < b.clock.alarms.length) (other : String) :
    (b.step op).1.handles.get? other = some id ↔
      b.handles.get? other = some id ∧ op.spares other = true := by
  show (b.perform op).handles.get? other = some id ↔ _
  cases op with
  | arm as delay =>
    -- The alarm that is armed here is a new one.
    have hnew : ¬ b.clock.alarms.length = id := (Nat.ne_of_lt h).symm
    show (b.handles.set as b.clock.alarms.length).get? other = some id ↔ _
    rw [Named.get?_set]
    by_cases heq : other = as <;> simp [heq, hnew, Op.spares, Ne.symm]
  | cancel handle =>
    rw [perform]
    split <;> simp [Op.spares]
  | forget handle =>
    show (b.handles.erase handle).get? other = some id ↔ _
    rw [Named.get?_erase]
    by_cases heq : other = handle <;> simp [heq, Op.spares, Ne.symm]
  | advance => simp [perform, Op.spares]

/-- Where nothing is due after an operation, the operation is all there is to a step. -/
theorem step_of_idle (h : (b.perform op).clock.due = []) : b.step op = (b.perform op, []) := by
  show ({ b.perform op with clock := (b.perform op).clock.settle.2 }, (b.perform op).clock.due) = _
  rw [Clock.settle_of_idle h, h]

/-- Looking a name up in a list of results gives the result for what the name stands for. Entries without a result
fall out, but this one has one. -/
theorem lookup_filterMap {α β γ : Type} {f : α → Option β} {g : β → γ} {entries : List (String × α)}
    {x : α} {y : β} (hlookup : entries.lookup name = some x) (hx : f x = some y) :
    (entries.filterMap fun e => (f e.2).map fun y => (e.1, g y)).lookup name = some (g y) := by
  induction entries with
  | nil => cases hlookup
  | cons e entries ih =>
    rw [List.lookup_cons] at hlookup
    cases he : name == e.1 with
    | true =>
      rw [he] at hlookup
      obtain rfl : e.2 = x := by simpa using hlookup
      simp [hx, List.lookup_cons, he]
    | false =>
      rw [he] at hlookup
      -- Entries of other names may drop out, and are passed over if they do not.
      cases hf : f e.2 with
      | none => simpa [hf] using ih hlookup
      | some z => simpa [hf, List.lookup_cons, he] using ih hlookup

/-- A handle tells of its alarm whether that was cancelled. -/
theorem lookup_cancelled {a : Alarm} (hget : b.handles.get? name = some id)
    (ha : b.clock.alarms[id]? = some a) : b.cancelled.lookup name = some a.isCancelled :=
  lookup_filterMap (f := fun id => b.clock.alarms[id]?) (g := Alarm.isCancelled) hget ha

/-! ## Boards that have settled -/

/-- Nothing is left to run, and every handle is one of an alarm on the clock. -/
structure Kept (b : Board) : Prop where
  idle : b.clock.due = []
  known : ∀ handle id, b.handles.get? handle = some id → id < b.clock.alarms.length

/-- An empty board has nothing to keep. -/
theorem Kept.empty : Kept {} where
  idle := rfl
  known := by
    intro handle id h
    cases h

/-- **Every operation keeps the board in order.** Behind it nothing is due, since what was due has run, and a handle
that is new is the one of the alarm just armed. -/
theorem Kept.step (h : Kept b) (op : Op) : Kept (b.step op).1 where
  idle := Clock.due_settle _
  known := by
    intro handle id hget
    rcases Nat.lt_or_ge id b.clock.alarms.length with hlt | hge
    · exact Nat.lt_of_lt_of_le hlt (length_le_step b op)
    · -- A handle that was not there before is that of an alarm just armed.
      show id < (b.perform op).clock.settle.2.alarms.length
      rw [Clock.length_settle]
      change (b.perform op).handles.get? handle = some id at hget
      have hold : ¬ b.handles.get? handle = some id := fun hold => Nat.not_lt.mpr hge (h.known handle id hold)
      cases op with
      | arm as delay =>
        change (b.handles.set as b.clock.alarms.length).get? handle = some id at hget
        rw [Named.get?_set] at hget
        split at hget
        next =>
          obtain rfl := Option.some.inj hget
          simp [perform, Clock.arm]
        next => exact absurd hget hold
      | cancel other =>
        rw [perform] at hget
        split at hget <;> exact absurd hget hold
      | forget other =>
        change (b.handles.erase other).get? handle = some id at hget
        rw [Named.get?_erase] at hget
        split at hget
        next => cases hget
        next => exact absurd hget hold
      | advance ticks => exact absurd hget hold

/-- So a session keeps it, by induction on its operations. -/
theorem Kept.run (h : Kept b) (ops : List Op) : Kept (b.run ops).1 := by
  induction ops generalizing b with
  | nil => exact h
  | cons op ops ih => exact ih (h.step op)

theorem kept_after (ops : List Op) : Kept (after ops) := Kept.empty.run ops

/-! ## No alarm runs twice -/

/-- Whether an alarm has run. -/
def HasRun (b : Board) (id : AlarmId) : Prop := ∃ a, b.clock.alarms[id]? = some a ∧ a.isTaken = true

/-- What has run has run for good. -/
theorem HasRun.step (h : b.HasRun id) (op : Op) : (b.step op).1.HasRun id := by
  obtain ⟨a, ha, htaken⟩ := h
  refine ⟨_, by rw [getElem?_step op (List.getElem?_eq_some_iff.mp ha).1, ha, Option.map_some], ?_⟩
  rw [Alarm.settled, htaken, Bool.true_or]

/-- An alarm that a step tells of has been marked as run by that step. -/
theorem hasRun_of_mem_step (h : id ∈ (b.step op).2) : (b.step op).1.HasRun id := by
  change id ∈ (b.perform op).clock.due at h
  obtain ⟨a, ha, hdue⟩ := Clock.mem_due.mp h
  refine ⟨a.settled (b.perform op).clock.now, ?_, ?_⟩
  · show (b.perform op).clock.settle.2.alarms[id]? = _
    rw [Clock.alarms_settle, List.getElem?_map, ha, Option.map_some]
  · rw [Alarm.settled_of_due hdue]

/-- **Nothing runs twice.** An alarm that has run is not due any more, so no later step tells of it. -/
theorem HasRun.not_mem_step (h : b.HasRun id) (op : Op) : id ∉ (b.step op).2 := by
  obtain ⟨a, ha, htaken⟩ := h
  rw [mem_step op (List.getElem?_eq_some_iff.mp ha).1, ha]
  rintro ⟨_, ⟨⟩, hdue⟩
  rw [Alarm.isDueAt_iff, htaken] at hdue
  cases hdue.2.1

theorem HasRun.not_mem_run (h : b.HasRun id) (ops : List Op) : id ∉ (b.run ops).2.flatten := by
  induction ops generalizing b with
  | nil => exact List.not_mem_nil
  | cons op ops ih =>
    show id ∉ (b.step op).2 ++ ((b.step op).1.run ops).2.flatten
    rw [List.mem_append]
    rintro (hnow | hlater)
    · exact h.not_mem_step op hnow
    · exact ih (h.step op) hlater

theorem HasRun.run (h : b.HasRun id) (ops : List Op) : (b.run ops).1.HasRun id := by
  induction ops generalizing b with
  | nil => exact h
  | cons op ops ih => exact ih (h.step op)

/-- Whatever a session tells of has run in it, sooner or later. -/
theorem hasRun_of_mem_run {ops : List Op} (h : id ∈ (b.run ops).2.flatten) : (b.run ops).1.HasRun id := by
  induction ops generalizing b with
  | nil => exact absurd h List.not_mem_nil
  | cons op ops ih =>
    change id ∈ (b.step op).2 ++ ((b.step op).1.run ops).2.flatten at h
    rcases List.mem_append.mp h with hnow | hlater
    · exact (hasRun_of_mem_step hnow).run ops
    · exact ih hlater

/-- So a session tells of each alarm at most once: within a step because the due alarms are distinct, across steps
because what has run is over. -/
theorem nodup_run (b : Board) (ops : List Op) : (b.run ops).2.flatten.Nodup := by
  induction ops generalizing b with
  | nil => exact List.nodup_nil
  | cons op ops ih =>
    show ((b.step op).2 ++ ((b.step op).1.run ops).2.flatten).Nodup
    rw [List.nodup_append]
    refine ⟨Clock.nodup_due _, ih _, ?_⟩
    rintro id hnow _ hlater rfl
    exact (hasRun_of_mem_step hnow).not_mem_run ops hlater

/-- **No alarm runs twice.** -/
theorem nodup_fired (ops : List Op) : (fired ops).Nodup := nodup_run {} ops

/-! ## Cancelling what cannot run -/

/-- Two boards with the same handles, whose clocks run the same alarms. -/
structure Alike (b d : Board) : Prop where
  clock : b.clock.Alike d.clock
  handles : b.handles = d.handles

/-- Boards that nobody can tell apart stay so under every operation before the alarms run. -/
theorem Alike.perform {b d : Board} (h : Alike b d) (op : Op) : Alike (b.perform op) (d.perform op) := by
  cases op with
  | arm as delay =>
    refine ⟨h.clock.arm delay, ?_⟩
    show b.handles.set as b.clock.alarms.length = d.handles.set as d.clock.alarms.length
    rw [h.handles, h.clock.length_eq]
  | cancel handle =>
    rw [Board.perform, Board.perform, h.handles]
    split
    next id _ => exact ⟨h.clock.cancel id, rfl⟩
    next => exact h
  | forget handle => exact ⟨h.clock, congrArg (·.erase handle) h.handles⟩
  | advance ticks => exact ⟨h.clock.tick ticks, h.handles⟩

/-- And when the alarms have run, which are the same on both. -/
theorem Alike.step {b d : Board} (h : Alike b d) (op : Op) :
    Alike (b.step op).1 (d.step op).1 ∧ (b.step op).2 = (d.step op).2 :=
  ⟨⟨(h.perform op).clock.settle, (h.perform op).handles⟩, (h.perform op).clock.due_eq⟩

theorem Alike.run {b d : Board} (h : Alike b d) (ops : List Op) : (b.run ops).2 = (d.run ops).2 := by
  induction ops generalizing b d with
  | nil => rfl
  | cons op ops ih =>
    obtain ⟨halike, hfired⟩ := h.step op
    show (b.step op).2 :: ((b.step op).1.run ops).2 = (d.step op).2 :: ((d.step op).1.run ops).2
    rw [hfired, ih halike]

/-- **To cancel an alarm that cannot run any more changes nothing of what runs.** -/
theorem run_cancel {handle : String} (h : Kept b) (hget : b.handles.get? handle = some id)
    (hlive : id ∉ b.clock.live) (later : List Op) :
    (b.run (.cancel handle :: later)).2 = [] :: (b.run later).2 := by
  have hperform : b.perform (.cancel handle) = { b with clock := b.clock.cancel id } := by
    rw [perform, hget]
  have halike : Alike (b.perform (.cancel handle)) b := by
    rw [hperform]
    exact ⟨Clock.alike_cancel hlive, rfl⟩
  have hidle : (b.perform (.cancel handle)).clock.due = [] := by rw [halike.clock.due_eq, h.idle]
  show (b.step (.cancel handle)).2 :: ((b.step (.cancel handle)).1.run later).2 = _
  rw [step_of_idle hidle, halike.run later]

/-! ## Time that goes by in pieces -/

/-- Stopping halfway makes no difference to the board. -/
theorem step_advance_advance (b : Board) (s t : Nat) :
    ((b.step (.advance s)).1.step (.advance t)).1 = (b.step (.advance (s + t))).1 := by
  show ({ b with clock := ((b.clock.tick s).settle.2.tick t).settle.2 } : Board) = _
  rw [Clock.settle_tick_settle_tick]
  rfl

/-- Nor to which alarms run: each runs in the piece in which its deadline lies. -/
theorem mem_step_advance_add {s t : Nat} :
    id ∈ (b.step (.advance (s + t))).2 ↔
      id ∈ (b.step (.advance s)).2 ∨ id ∈ ((b.step (.advance s)).1.step (.advance t)).2 :=
  Clock.mem_due_tick_add

/-- When nothing is due, no time changes nothing. -/
theorem Kept.step_advance_zero (h : Kept b) : b.step (.advance 0) = (b, []) := step_of_idle h.idle

/-- **A board that lets time go by in pieces is as one that lets it go by at once**, and the same alarms
have run. -/
theorem run_advances (h : Kept b) (pieces : List Nat) :
    (b.run (advances pieces)).1 = (b.step (.advance (elapsed (advances pieces)))).1 ∧
      ∀ id, id ∈ (b.run (advances pieces)).2.flatten ↔
        id ∈ (b.step (.advance (elapsed (advances pieces)))).2 := by
  induction pieces generalizing b with
  | nil =>
    rw [advances, List.map_nil, elapsed, h.step_advance_zero]
    exact ⟨rfl, fun _ => Iff.rfl⟩
  | cons piece pieces ih =>
    obtain ⟨hboard, hfired⟩ := ih (h.step (.advance piece))
    rw [advances, List.map_cons, elapsed]
    constructor
    · rw [← step_advance_advance]
      exact hboard
    · -- The firings of the first piece and of the rest are those of the two together.
      intro id
      rw [mem_step_advance_add]
      exact List.mem_append.trans (or_congr_right (hfired id))

end TextVault.Board
