import TextVault.Proofs.Alarm.Clock

/-
  A clock that settles, alarm by alarm.

  Problem: a clock runs all alarms that are due, one after another. Whoever waits for one of them wants to
  know what becomes of it, and that it makes no difference in how many steps the time went by.

  Program: `Alarm.settled` is what becomes of one alarm when the clock settles at some time, and
  `Alarm.outlook` is all of an alarm that tells when it runs.

  Spec: a clock settles each alarm on its own (`alarms_settle`), after which none is due (`due_settle`).
  Settling now and later is settling later, as what is due now would be due then (`settled_settled`); so a
  stretch of time may be cut in two (`settle_tick_settle_tick`, `mem_due_tick_add`). Clocks that agree in the
  time and in every outlook run the same alarms (`Alike.due_eq`) and go on to agree, as do a clock and the
  same clock with an alarm cancelled that was not to run any more (`alike_cancel`).
-/
namespace TextVault

namespace Alarm

/-- An alarm after the clock has settled. -/
def settled (now : Nat) (a : Alarm) : Alarm := { a with isTaken := a.isTaken || a.isDueAt now }

section Settled

variable {a : Alarm} {now later : Nat}

/-- Three things make an alarm due, and cancelling, running or a later deadline takes one of them away. -/
theorem isDueAt_iff :
    a.isDueAt now = true ↔ a.isCancelled = false ∧ a.isTaken = false ∧ a.deadline ≤ now := by
  simp [isDueAt, isLive, and_assoc]

/-- What is due now is due later, unless somebody runs it. -/
theorem isDueAt_mono (h : now ≤ later) (hdue : a.isDueAt now = true) : a.isDueAt later = true := by
  rw [isDueAt_iff] at hdue ⊢
  obtain ⟨hcancelled, htaken, hreached⟩ := hdue
  exact ⟨hcancelled, htaken, Nat.le_trans hreached h⟩

/-- An alarm that is due has been run afterwards. -/
theorem settled_of_due (h : a.isDueAt now = true) : a.settled now = { a with isTaken := true } := by
  rw [settled, h, Bool.or_true]

theorem settled_of_not_due (h : a.isDueAt now = false) : a.settled now = a := by
  rw [settled, h, Bool.or_false]

/-- Later an alarm is due that is due already, or that is still to be run. -/
theorem isDueAt_later (h : now ≤ later) :
    a.isDueAt later = true ↔ a.isDueAt now = true ∨ (a.settled now).isDueAt later = true := by
  cases hdue : a.isDueAt now with
  | true => simp [isDueAt_mono h hdue]
  | false => simp [settled_of_not_due hdue]

/-- What the clock has run it does not run again. -/
theorem isDueAt_settled_of_due (hdue : a.isDueAt now = true) : (a.settled now).isDueAt later = false := by
  rw [settled_of_due hdue, isDueAt, isLive, Bool.not_true, Bool.and_false, Bool.false_and]

/-- **Settling leaves nothing due**, so settling twice is settling once. -/
theorem isDueAt_settled (a : Alarm) (now : Nat) : (a.settled now).isDueAt now = false := by
  cases hdue : a.isDueAt now with
  | true => exact isDueAt_settled_of_due hdue
  | false => rw [settled_of_not_due hdue, hdue]

/-- Only what has reached its deadline is run. -/
theorem reached_of_isTaken_settled (h : (a.settled now).isTaken = true) : a.isTaken = true ∨ a.deadline ≤ now := by
  rw [settled, Bool.or_eq_true, isDueAt_iff] at h
  exact h.imp_right fun hdue => hdue.2.2

/-- **To settle now and later is to settle later.** -/
theorem settled_settled (h : now ≤ later) (a : Alarm) : (a.settled now).settled later = a.settled later := by
  cases hdue : a.isDueAt now with
  | true =>
    rw [settled_of_not_due (isDueAt_settled_of_due hdue), settled_of_due hdue,
      settled_of_due (isDueAt_mono h hdue)]
  | false => rw [settled_of_not_due hdue]

end Settled

/-! ## What is to be seen of an alarm -/

/-- All of an alarm that tells when it runs: its deadline, and whether it is still to run. -/
def outlook (a : Alarm) : Nat × Bool := (a.deadline, a.isLive)

/-- Whether an alarm is due depends on its outlook alone: when it would run, and whether it still may. -/
theorem isDueAt_congr {a b : Alarm} (h : a.outlook = b.outlook) (now : Nat) :
    a.isDueAt now = b.isDueAt now := by
  rw [outlook, outlook, Prod.mk.injEq] at h
  rw [isDueAt, isDueAt, h.1, h.2]

/-- An alarm survives settling exactly if it may still run and its deadline lies ahead. -/
theorem isLive_settled (a : Alarm) (now : Nat) :
    (a.settled now).isLive = (a.isLive && !decide (a.deadline ≤ now)) := by
  simp only [isLive, settled, isDueAt]
  cases a.isCancelled <;> cases a.isTaken <;> simp

theorem not_isLive_settled {a : Alarm} {now : Nat} (h : a.deadline ≤ now) : (a.settled now).isLive = false := by
  rw [isLive_settled, decide_eq_true h, Bool.not_true, Bool.and_false]

/-- What settling does to an outlook can be told from the outlook. -/
theorem outlook_settled (a : Alarm) (now : Nat) :
    (a.settled now).outlook = (a.outlook.1, a.outlook.2 && !decide (a.outlook.1 ≤ now)) := by
  rw [outlook, isLive_settled]
  rfl

end Alarm

namespace Clock

/-- The alarms that are due are those of the clock that are due at its time. -/
theorem mem_due {c : Clock} {id : AlarmId} :
    id ∈ c.due ↔ ∃ a, c.alarms[id]? = some a ∧ a.isDueAt c.now = true := by
  rw [due, List.mem_filter, List.mem_range]
  constructor
  · rintro ⟨hlt, hdue⟩
    rw [List.getElem?_eq_getElem hlt] at hdue ⊢
    exact ⟨_, rfl, hdue⟩
  · rintro ⟨a, ha, hdue⟩
    refine ⟨(List.getElem?_eq_some_iff.mp ha).1, ?_⟩
    rw [ha]
    exact hdue

/-- Each alarm is due once, since it has one place. -/
theorem nodup_due (c : Clock) : c.due.Nodup := List.filter_sublist.nodup List.nodup_range

/-- Running alarms touches nothing but their marks. -/
theorem foldl_take (ids : List AlarmId) (c : Clock) :
    ids.foldl take c = { c with alarms := (ids.foldl take c).alarms } := by
  induction ids generalizing c with
  | nil => rfl
  | cons id ids ih =>
    rw [List.foldl_cons, ih]
    rfl

/-- Running the callbacks of a list of alarms marks those in the list, whatever their order and however often one is
in it. -/
theorem getElem?_foldl_take (ids : List AlarmId) (c : Clock) (id : AlarmId) :
    (ids.foldl take c).alarms[id]? =
      (c.alarms[id]?).map fun a => { a with isTaken := a.isTaken || decide (id ∈ ids) } := by
  induction ids generalizing c with
  | nil => simp
  | cons first ids ih =>
    rw [List.foldl_cons, ih, getElem?_take]
    by_cases h : first = id
    · subst h
      rw [if_pos rfl, Option.map_map]
      simp [Function.comp_def]
    · have hne : ¬ id = first := fun heq => h heq.symm
      simp [h, hne]

/-- **A clock settles each alarm on its own.** -/
theorem alarms_settle (c : Clock) : c.settle.2.alarms = c.alarms.map (Alarm.settled c.now) := by
  apply List.ext_getElem?
  intro id
  show (c.due.foldl take c).alarms[id]? = _
  rw [getElem?_foldl_take, List.getElem?_map]
  cases ha : c.alarms[id]? with
  | none => rfl
  | some a =>
    have hdue : decide (id ∈ c.due) = a.isDueAt c.now := by
      rw [Bool.eq_iff_iff, decide_eq_true_iff, mem_due, ha]
      simp
    rw [Option.map_some, Option.map_some, hdue, Alarm.settled]

/-- **Settling looks at each alarm for itself.** What is written as one run after the other is a change of every alarm
that depends on no other. -/
theorem settle_eq (c : Clock) : c.settle.2 = { c with alarms := c.alarms.map (Alarm.settled c.now) } := by
  rw [← alarms_settle]
  exact foldl_take c.due c

@[simp] theorem now_settle (c : Clock) : c.settle.2.now = c.now := by rw [settle_eq]

@[simp] theorem length_settle (c : Clock) : c.settle.2.alarms.length = c.alarms.length := by
  rw [alarms_settle, List.length_map]

/-- A clock that has settled has nothing to run. -/
theorem due_settle (c : Clock) : c.settle.2.due = [] := by
  rw [List.eq_nil_iff_forall_not_mem]
  intro id hid
  obtain ⟨a, ha, hdue⟩ := mem_due.mp hid
  rw [alarms_settle, List.getElem?_map, Option.map_eq_some_iff] at ha
  obtain ⟨b, -, rfl⟩ := ha
  rw [now_settle, Alarm.isDueAt_settled] at hdue
  nomatch hdue

theorem settle_of_idle {c : Clock} (h : c.due = []) : c.settle.2 = c := by
  show c.due.foldl take c = c
  rw [h, List.foldl_nil]

/-! ## A stretch of time, cut in two -/

/-- **Time in two pieces**: alarms that run at the halfway point would have run at the end as well. -/
theorem settle_tick_settle_tick (c : Clock) (a b : Nat) :
    ((c.tick a).settle.2.tick b).settle.2 = (c.tick (a + b)).settle.2 := by
  have hle : c.now + a ≤ c.now + (a + b) := by omega
  have halarms : (c.alarms.map (Alarm.settled (c.now + a))).map (Alarm.settled (c.now + (a + b))) =
      c.alarms.map (Alarm.settled (c.now + (a + b))) := by
    rw [List.map_map]
    apply List.map_congr_left
    intro x _
    exact Alarm.settled_settled hle x
  rw [settle_eq, settle_eq (c.tick (a + b)), settle_eq (c.tick a)]
  simp only [tick, Nat.add_assoc, halarms]

/-- What is due after both pieces was due after the first or is due after the second, once the first has been dealt
with. -/
theorem mem_due_tick_add {c : Clock} {a b : Nat} {id : AlarmId} :
    id ∈ (c.tick (a + b)).due ↔ id ∈ (c.tick a).due ∨ id ∈ ((c.tick a).settle.2.tick b).due := by
  have hle : c.now + a ≤ c.now + (a + b) := by omega
  rw [mem_due, mem_due, mem_due, alarms_tick, alarms_tick, alarms_tick, alarms_settle, List.getElem?_map,
    alarms_tick]
  simp only [tick, now_settle, Nat.add_assoc]
  cases c.alarms[id]? with
  | none => simp
  | some x => simpa using Alarm.isDueAt_later (a := x) hle

/-! ## Clocks that run the same alarms -/

/-- Two clocks that show the same time, and of each alarm the same. -/
structure Alike (c d : Clock) : Prop where
  now : c.now = d.now
  outlooks : c.alarms.map Alarm.outlook = d.alarms.map Alarm.outlook

/-- A cancelled alarm may not run any more, whatever its deadline. -/
theorem outlook_cancel (c : Clock) (id other : AlarmId) :
    ((c.cancel id).alarms[other]?).map Alarm.outlook =
      if id = other then ((c.alarms[other]?).map Alarm.outlook).map fun o => (o.1, false)
      else (c.alarms[other]?).map Alarm.outlook := by
  rw [getElem?_cancel]
  by_cases heq : id = other
  · rw [if_pos heq, if_pos heq, Option.map_map, Option.map_map]
    rfl
  · rw [if_neg heq, if_neg heq]

namespace Alike

variable {c d : Clock}

theorem length_eq (h : Alike c d) : c.alarms.length = d.alarms.length := by
  simpa using congrArg List.length h.outlooks

theorem outlook_eq (h : Alike c d) (id : AlarmId) :
    (c.alarms[id]?).map Alarm.outlook = (d.alarms[id]?).map Alarm.outlook := by
  rw [← List.getElem?_map, h.outlooks, List.getElem?_map]

/-- So the same alarms are due on both. -/
theorem due_eq (h : Alike c d) : c.due = d.due := by
  rw [due, due, h.length_eq, h.now]
  refine List.filter_congr fun id _ => ?_
  have hid := h.outlook_eq id
  cases hc : c.alarms[id]? with
  | none =>
    rw [hc, Option.map_none, eq_comm, Option.map_eq_none_iff] at hid
    rw [hid]
  | some a =>
    rw [hc, Option.map_some, eq_comm, Option.map_eq_some_iff] at hid
    obtain ⟨a', ha', houtlook⟩ := hid
    rw [ha']
    exact Alarm.isDueAt_congr houtlook.symm d.now

theorem arm (h : Alike c d) (delay : Nat) : Alike (c.arm delay).2 (d.arm delay).2 where
  now := h.now
  outlooks := by
    simp only [Clock.arm, List.map_append, h.outlooks, h.now]

theorem cancel (h : Alike c d) (id : AlarmId) : Alike (c.cancel id) (d.cancel id) where
  now := h.now
  outlooks := by
    apply List.ext_getElem?
    intro other
    rw [List.getElem?_map, List.getElem?_map, outlook_cancel, outlook_cancel, h.outlook_eq]

theorem tick (h : Alike c d) (ticks : Nat) : Alike (c.tick ticks) (d.tick ticks) where
  now := congrArg (· + ticks) h.now
  outlooks := h.outlooks

theorem settle (h : Alike c d) : Alike c.settle.2 d.settle.2 where
  now := by rw [now_settle, now_settle, h.now]
  outlooks := by
    have hseen (e : Clock) : e.settle.2.alarms.map Alarm.outlook =
        (e.alarms.map Alarm.outlook).map fun o => (o.1, o.2 && !decide (o.1 ≤ e.now)) := by
      rw [alarms_settle, List.map_map, List.map_map]
      exact List.map_congr_left fun a _ => Alarm.outlook_settled a e.now
    rw [hseen, hseen, h.outlooks, h.now]

end Alike

/-- To cancel an alarm that is not to run any more is not to be seen. -/
theorem alike_cancel {c : Clock} {id : AlarmId} (h : id ∉ c.live) : Alike (c.cancel id) c where
  now := rfl
  outlooks := by
    apply List.ext_getElem?
    intro other
    rw [List.getElem?_map, List.getElem?_map, outlook_cancel]
    split
    next heq =>
      subst heq
      cases ha : c.alarms[id]? with
      | none => rfl
      | some a =>
        -- An alarm that is not live looks the same to everyone, cancelled or not.
        have hlive : a.isLive = false := by
          rw [← Bool.not_eq_true]
          exact fun hlive => h (mem_live.mpr ⟨a, ha, hlive⟩)
        rw [Option.map_some, Option.map_some, Alarm.outlook, hlive]
    next => rfl

end Clock

end TextVault
