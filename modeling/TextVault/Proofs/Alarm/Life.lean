import TextVault.Proofs.Alarm.Schedule

/-
  The life of an alarm on a board.

  Problem: whoever armed an alarm wants to know of it alone, whatever else is armed, cancelled or dropped
  meanwhile: when it runs, and what can stop it.

  Program: an alarm is armed under a name, and its handle has that name until the name is dropped or used
  again.

  Spec: `Life` is what the operations since its arming make of an alarm. From it, the alarm runs in the step
  that reaches its deadline unless it was cancelled through its handle before (`Life.mem_step`), its handle
  tells whether it was cancelled (`Life.lookup_cancelled`), and it makes no difference to lose the handle
  (`mem_step_of_loses`). `life_of_alarm` says it of every schedule.
-/
namespace TextVault.Board

/-- What the operations since it was armed under a name make of an alarm. -/
structure Life (b : Board) (id : AlarmId) (name : String) (since : List Op) (a : Alarm) : Prop where
  alarm : b.clock.alarms[id]? = some a
  now : b.clock.now = a.armedAt + elapsed since
  isCancelled : a.isCancelled = true ↔ .cancel name ∈ held name since
  /-- It does not run before its time. -/
  early : a.isTaken = true → a.delay ≤ elapsed since
  /-- When its time has come it has run, or was cancelled. -/
  late : a.delay ≤ elapsed since → a.isLive = false
  handle : ∀ other, b.handles.get? other = some id ↔ other = name ∧ ∀ op ∈ since, op.spares name = true

namespace Life

variable {b : Board} {id : AlarmId} {name : String} {since : List Op} {a : Alarm}

/-- The alarm that the story is about has been armed. -/
theorem lt_length (h : Life b id name since a) : id < b.clock.alarms.length :=
  (List.getElem?_eq_some_iff.mp h.alarm).1

/-- The alarm that is armed under a name gets the next place. -/
theorem arm (h : Kept b) (name : String) (delay : Nat) :
    Life (b.step (.arm name delay)).1 b.clock.alarms.length name []
      (Alarm.settled b.clock.now { armedAt := b.clock.now, delay }) where
  alarm := by
    show (b.clock.arm delay).2.settle.2.alarms[b.clock.alarms.length]? = _
    rw [Clock.alarms_settle, List.getElem?_map, Clock.getElem?_arm, if_pos rfl]
    rfl
  now := now_step b _
  isCancelled := by simp [Alarm.settled, held]
  early := by
    intro htaken
    -- A fresh alarm was not taken before, so being taken means that its delay is over already.
    rcases Alarm.reached_of_isTaken_settled htaken with hbefore | hreached
    · cases hbefore
    · exact Nat.le_of_add_le_add_left hreached
  late := by
    intro hpast
    exact Alarm.not_isLive_settled (Nat.add_le_add_left hpast b.clock.now)
  handle := by
    intro other
    show (b.handles.set name b.clock.alarms.length).get? other = some _ ↔ _
    rw [Named.get?_set]
    by_cases heq : other = name
    · simp [heq]
    · -- No older handle stands for the new alarm, whose place was not there before.
      have hold : ¬ b.handles.get? other = some b.clock.alarms.length :=
        fun hold => Nat.lt_irrefl _ (h.known other _ hold)
      simp [heq, hold]

/-- An operation cancels the alarm if it is a cancel by its name, while that has its handle. -/
theorem cancels_iff (h : Life b id name since a) (op : Op) :
    b.cancels id op = true ↔ op = .cancel name ∧ ∀ op ∈ since, op.spares name = true := by
  cases op with
  | cancel other =>
    rw [cancels, beq_iff_eq, h.handle other, Op.cancel.injEq]
  | arm | forget | advance => simp [cancels]

/-- **Cancelled means cancelled through its own handle.** The mark is set exactly by a cancel under the name that the
alarm was armed under, while that name still stands for it. -/
theorem isCancelled_step (h : Life b id name since a) (op : Op) :
    (a.isCancelled || b.cancels id op) = true ↔ .cancel name ∈ held name (since ++ [op]) := by
  have hop : .cancel name ∈ held name [op] ↔ op = .cancel name := by
    rw [mem_held_cons]
    constructor
    · rintro ⟨-, rfl | hmem⟩
      · rfl
      · cases hmem
    · rintro rfl
      exact ⟨rfl, .inl rfl⟩
  rw [Bool.or_eq_true, mem_held_append, h.isCancelled, h.cancels_iff, hop, and_comm]

/-- Its deadline is reached exactly when its delay has gone by since it was armed, in however many steps. -/
theorem deadline_le_iff (h : Life b id name since a) (op : Op) :
    a.deadline ≤ b.clock.now + op.ticks ↔ a.delay ≤ elapsed (since ++ [op]) := by
  rw [h.now, elapsed_concat, Alarm.deadline]
  omega

/-- **When an alarm runs:** in the step that reaches its deadline, unless it was cancelled before. -/
theorem mem_step (h : Life b id name since a) (op : Op) :
    id ∈ (b.step op).2 ↔
      elapsed since < a.delay ∧ a.delay ≤ elapsed (since ++ [op]) ∧ .cancel name ∉ held name since := by
  rw [Board.mem_step op h.lt_length, h.alarm, ← h.isCancelled, ← h.deadline_le_iff]
  simp only [Option.some.injEq, exists_eq_left', Alarm.isDueAt_iff, Bool.or_eq_false_iff, Bool.not_eq_true]
  constructor
  · rintro ⟨⟨hcancelled, -⟩, htaken, hdue⟩
    refine ⟨?_, hdue, hcancelled⟩
    -- An alarm still to run is one whose time has not come.
    rw [← Nat.not_le]
    intro hpast
    have hlive := h.late hpast
    rw [Alarm.isLive, hcancelled, htaken] at hlive
    cases hlive
  · rintro ⟨hbefore, hdue, hcancelled⟩
    refine ⟨⟨hcancelled, ?_⟩, ?_, hdue⟩
    · -- Time goes by in this step, so it is not the one that cancels.
      rw [h.deadline_le_iff, elapsed_concat] at hdue
      rw [← Bool.not_eq_true, h.cancels_iff]
      rintro ⟨rfl, -⟩
      exact Nat.not_le.mpr hbefore hdue
    · rw [← Bool.not_eq_true]
      intro htaken
      exact Nat.not_le.mpr hbefore (h.early htaken)

/-- **One step of an alarm's life.** -/
theorem step (h : Life b id name since a) (op : Op) :
    Life (b.step op).1 id name (since ++ [op])
      ({ a with isCancelled := a.isCancelled || b.cancels id op }.settled (b.clock.now + op.ticks)) where
  alarm := by rw [getElem?_step op h.lt_length, h.alarm, Option.map_some]
  now := by
    rw [now_step, h.now, elapsed_concat, ← Nat.add_assoc]
    rfl
  isCancelled := h.isCancelled_step op
  early := by
    intro htaken
    show a.delay ≤ elapsed (since ++ [op])
    -- Taken earlier, or in this step, which then reaches the deadline.
    rcases Alarm.reached_of_isTaken_settled htaken with hbefore | hreached
    · rw [elapsed_concat]
      exact Nat.le_add_right_of_le (h.early hbefore)
    · exact (h.deadline_le_iff op).mp hreached
  late := by
    intro hpast
    exact Alarm.not_isLive_settled ((h.deadline_le_iff op).mpr hpast)
  handle := by
    intro other
    rw [get?_step op h.lt_length, h.handle, List.forall_mem_append, List.forall_mem_singleton, and_assoc]
    refine and_congr_right fun heq => ?_
    rw [heq]

/-- The whole life of an alarm, from what it was. -/
theorem run (h : Life b id name since a) (ops : List Op) :
    ∃ a', Life (b.run ops).1 id name (since ++ ops) a' ∧ a'.armedAt = a.armedAt ∧ a'.delay = a.delay := by
  induction ops generalizing b since a with
  | nil => exact ⟨a, by rwa [List.append_nil], rfl, rfl⟩
  | cons op ops ih =>
    obtain ⟨a', h', harmedAt, hdelay⟩ := ih (h.step op)
    rw [List.append_assoc] at h'
    exact ⟨a', h', harmedAt, hdelay⟩

/-- **What a handle tells:** whether its alarm was cancelled. -/
theorem lookup_cancelled (h : Life b id name since a) (hspares : ∀ op ∈ since, op.spares name = true) :
    b.cancelled.lookup name = some (decide (.cancel name ∈ since)) := by
  have hget : b.handles.get? name = some id := (h.handle name).mpr ⟨rfl, hspares⟩
  have hcancelled := h.isCancelled
  rw [held_of_spares hspares] at hcancelled
  rw [Board.lookup_cancelled hget h.alarm, Option.some_inj, Bool.eq_iff_iff, decide_eq_true_iff, hcancelled]

/-- To cancel an alarm that has run or was cancelled changes nothing of what runs. -/
theorem run_cancel (h : Life b id name since a) (hb : Kept b) (hspares : ∀ op ∈ since, op.spares name = true)
    (hover : a.isTaken = true ∨ .cancel name ∈ since) (later : List Op) :
    (b.run (.cancel name :: later)).2 = [] :: (b.run later).2 := by
  apply Board.run_cancel hb ((h.handle name).mpr ⟨rfl, hspares⟩)
  rw [Clock.mem_live, h.alarm]
  rintro ⟨_, ⟨⟩, hlive⟩
  rw [Alarm.isLive, Bool.and_eq_true, Bool.not_eq_true', Bool.not_eq_true'] at hlive
  rcases hover with htaken | hcancel
  · rw [htaken] at hlive
    cases hlive.2
  · rw [← held_of_spares hspares, ← h.isCancelled] at hcancel
    rw [hcancel] at hlive
    cases hlive.1

end Life

/-! ## An alarm of a schedule -/

section Schedule

variable {before since xs ys : List Op} {name : String} {delay : Nat}

/-- Whatever went on before, an alarm that is armed has such a life from then on. It begins with the time of its
arming and with its whole delay. -/
theorem life_after (before : List Op) (name : String) (delay : Nat) (since : List Op) :
    ∃ a, Life (after (before ++ .arm name delay :: since)) (after before).clock.alarms.length name since a ∧
      a.armedAt = (after before).clock.now ∧ a.delay = delay := by
  rw [after_append]
  exact (Life.arm (kept_after before) name delay).run since

/-- In the step in which it is armed it runs only if there is nothing to wait for. -/
theorem mem_step_arm (b : Board) (name : String) (delay : Nat) :
    b.clock.alarms.length ∈ (b.step (.arm name delay)).2 ↔ delay = 0 := by
  show b.clock.alarms.length ∈ (b.clock.arm delay).2.due ↔ _
  rw [Clock.mem_due, Clock.getElem?_arm, if_pos rfl]
  simp only [Option.some.injEq, exists_eq_left', Alarm.isDueAt_iff, true_and, Alarm.deadline, Clock.now_arm]
  omega

/-- Nothing ran before it was there to run. -/
theorem not_mem_fired (before : List Op) : (after before).clock.alarms.length ∉ fired before := by
  intro hmem
  obtain ⟨a, ha, -⟩ := hasRun_of_mem_run hmem
  exact Nat.lt_irrefl _ (List.getElem?_eq_some_iff.mp ha).1

/-- **When an alarm of a schedule runs.** -/
theorem mem_step_after {op : Op} :
    (after before).clock.alarms.length ∈ ((after (before ++ .arm name delay :: since)).step op).2 ↔
      elapsed since < delay ∧ delay ≤ elapsed (since ++ [op]) ∧ .cancel name ∉ held name since := by
  obtain ⟨a, h, -, rfl⟩ := life_after before name delay since
  exact h.mem_step op

/-- **To lose a handle stops no alarm and delays none**, be it the alarm's own handle or another. -/
theorem mem_step_of_loses {lose op : Op} {other : String} (hlose : lose = .forget other ∨ ∃ d, lose = .arm other d)
    (h : (after before).clock.alarms.length ∈ ((after (before ++ .arm name delay :: (xs ++ ys))).step op).2) :
    (after before).clock.alarms.length ∈
      ((after (before ++ .arm name delay :: (xs ++ lose :: ys))).step op).2 := by
  have hticks : lose.ticks = 0 := by rcases hlose with rfl | ⟨d, rfl⟩ <;> rfl
  have hne : .cancel name ≠ lose := by rcases hlose with rfl | ⟨d, rfl⟩ <;> exact Op.noConfusion
  have helapsed : elapsed (xs ++ lose :: ys) = elapsed (xs ++ ys) := by
    rw [elapsed_append, elapsed, hticks, Nat.zero_add, elapsed_append]
  rw [mem_step_after, elapsed_concat] at h ⊢
  rw [helapsed]
  refine ⟨h.1, h.2.1, fun hcancel => h.2.2 ?_⟩
  rw [mem_held_append, mem_held_cons] at hcancel
  rw [mem_held_append]
  rcases hcancel with hxs | ⟨hspares, -, heq | hys⟩
  · exact .inl hxs
  · exact absurd heq hne
  · exact .inr ⟨hspares, hys⟩

end Schedule

/-! ## Time that goes by in pieces -/

/-- Time that goes by in pieces leaves the board as the same time in one piece does. -/
theorem after_advances (ops : List Op) (pieces : List Nat) :
    after (ops ++ advances pieces) = after (ops ++ [.advance (elapsed (advances pieces))]) := by
  rw [after_append, after_concat, (run_advances (kept_after ops) pieces).1]

/-- And it runs the same alarms, only in several steps. -/
theorem mem_fired_advances {ops : List Op} {pieces : List Nat} {id : AlarmId} :
    id ∈ fired (ops ++ advances pieces) ↔ id ∈ fired (ops ++ [.advance (elapsed (advances pieces))]) := by
  rw [fired_append, fired_concat, List.mem_append, List.mem_append, (run_advances (kept_after ops) pieces).2]

/-- **The same alarms have run, then and ever after.** -/
theorem perm_fired_advances (ops : List Op) (pieces : List Nat) (later : List Op) :
    (fired (ops ++ advances pieces ++ later)).Perm
      (fired (ops ++ [.advance (elapsed (advances pieces))] ++ later)) := by
  rw [List.perm_ext_iff_of_nodup (nodup_fired _) (nodup_fired _)]
  intro id
  rw [fired_append _ later, fired_append _ later, after_advances, List.mem_append, List.mem_append,
    mem_fired_advances]

/-- **The life of an alarm in a schedule.** An alarm runs at most once: in the step in which the clock first
reaches its deadline, unless it was cancelled through its handle before. To lose a handle stops no alarm and
delays none; a handle tells whether its alarm was cancelled; to cancel an alarm that has run, or again,
changes nothing of what runs; and it makes no difference in how many pieces time goes by. -/
theorem life_of_alarm (before : List Op) (name : String) (delay : Nat) :
    let id := ((after before).clock.arm delay).1
    let deadline := (after before).clock.now + delay
    let armed := fun since => before ++ .arm name delay :: since
    (id ∉ fired before ∧ ∀ since, (fired (armed since)).Nodup) ∧
    (id ∈ ((after before).step (.arm name delay)).2 ↔ delay = 0) ∧
    (∀ since op, id ∈ ((after (armed since)).step op).2 ↔
      (after (armed since)).clock.now < deadline ∧ deadline ≤ ((after (armed since)).step op).1.clock.now ∧
        .cancel name ∉ held name since) ∧
    (∀ lose other xs ys op, (lose = .forget other ∨ ∃ d, lose = .arm other d) →
      id ∈ ((after (armed (xs ++ ys))).step op).2 → id ∈ ((after (armed (xs ++ lose :: ys))).step op).2) ∧
    (∀ since, (∀ op ∈ since, op.spares name = true) →
      (after (armed since)).cancelled.lookup name = some (decide (.cancel name ∈ since)) ∧
      (id ∈ fired (armed since) ∨ .cancel name ∈ since → ∀ later,
        ((after (armed since)).run (.cancel name :: later)).2 = [] :: ((after (armed since)).run later).2)) ∧
    (∀ ops pieces later,
      after (ops ++ advances pieces) = after (ops ++ [.advance (elapsed (advances pieces))]) ∧
      (fired (ops ++ advances pieces ++ later)).Perm
        (fired (ops ++ [.advance (elapsed (advances pieces))] ++ later))) := by
  intro id deadline armed
  refine ⟨⟨not_mem_fired before, fun since => nodup_fired _⟩, mem_step_arm _ name delay, ?_, ?_, ?_, ?_⟩
  · intro since op
    -- The clock shows the time of arming and what has gone by since, so both sides speak of the elapsed time.
    have hnow : (after (armed since)).clock.now = (after before).clock.now + elapsed since := by
      rw [after_append, now_run, elapsed]
      exact congrArg _ (Nat.zero_add _)
    refine mem_step_after.trans ?_
    rw [now_step, hnow, elapsed_concat, Nat.add_assoc, Nat.add_lt_add_iff_left, Nat.add_le_add_iff_left]
  · intro lose other xs ys op hlose
    exact mem_step_of_loses hlose
  · intro since hspares
    obtain ⟨a, h, -, -⟩ := life_after before name delay since
    refine ⟨h.lookup_cancelled hspares, fun hover => h.run_cancel (kept_after _) hspares ?_⟩
    -- An alarm that ran is one that was taken, and a cancellation after that finds nothing to cancel.
    refine hover.imp_left fun hfired => ?_
    obtain ⟨a', ha', htaken⟩ := hasRun_of_mem_run hfired
    obtain rfl : a' = a := Option.some.inj (ha'.symm.trans h.alarm)
    exact htaken
  · intro ops pieces later
    exact ⟨after_advances ops pieces, perm_fired_advances ops pieces later⟩

/-- An alarm of a minute runs in the step that completes the minute, also when its name has been used again. Its
handle does not count that as a cancel, and to cancel it then leaves the next alarm alone. -/
theorem life_of_alarm_minute :
    let armed := fun since => .arm "a" 60000 :: since
    0 ∈ ((after (armed [.advance 59000])).step (.advance 1000)).2 ∧
    0 ∈ ((after (armed [.arm "a" 5, .advance 59000])).step (.advance 1000)).2 ∧
    (after (armed [.advance 60000])).cancelled.lookup "a" = some false ∧
    ((after (armed [.advance 60000])).run [.cancel "a", .arm "b" 5, .advance 5]).2 = [[], [], [1]] ∧
    (fired (armed [] ++ advances [59000, 1000] ++ [.arm "b" 0])).Perm
      (fired (armed [] ++ [.advance 60000] ++ [.arm "b" 0])) := by
  obtain ⟨_, _, hfires, hloses, htells, hpieces⟩ := life_of_alarm [] "a" 60000
  have hfirst := (hfires [.advance 59000] (.advance 1000)).mpr (by decide +kernel)
  refine ⟨hfirst, ?_, ?_, ?_, ?_⟩
  · exact hloses (.arm "a" 5) "a" [] [.advance 59000] (.advance 1000) (.inr ⟨5, rfl⟩) hfirst
  · exact (htells [.advance 60000] (by decide +kernel)).1
  · exact (htells [.advance 60000] (by decide +kernel)).2 (.inl (by decide +kernel)) [.arm "b" 5, .advance 5]
  · exact (hpieces [.arm "a" 60000] [59000, 1000] [.arm "b" 0]).2

end TextVault.Board
