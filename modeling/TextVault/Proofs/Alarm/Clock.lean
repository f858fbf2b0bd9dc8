import TextVault.Alarm.Clock

/-
  What the operations of a clock do to its live alarms.

  Problem: an alarm is live until it is cancelled or its callback has been run. Whoever waits for alarms
  wants to know after each operation which of them are live and which are due.

  Spec: arming adds the newest alarm at the end of the live ones (`live_arm`), cancelling and taking leave
  one out (`live_cancel`, `live_take`), and time alone changes none (`live_tick`). What is due is live,
  with a deadline that has been reached (`due_eq_filter_live`).
-/
namespace TextVault.Clock

/-! ## One alarm after an operation -/

/-- A new alarm has the next place and starts out live, and the alarms before it stay what they are. -/
theorem getElem?_arm (c : Clock) (delay : Nat) (id : AlarmId) :
    (c.arm delay).2.alarms[id]? =
      if id = c.alarms.length then some { armedAt := c.now, delay } else c.alarms[id]? := by
  show (c.alarms ++ [_])[id]? = _
  by_cases h : id = c.alarms.length
  · rw [if_pos h, h, List.getElem?_concat_length]
  · rw [if_neg h]
    rcases Nat.lt_or_gt_of_ne h with hlt | hgt
    · exact List.getElem?_append_left hlt
    · rw [List.getElem?_eq_none (by simp; omega), List.getElem?_eq_none (by omega)]

/-- A cancel marks one alarm and no other; one that was never armed is not marked. -/
theorem getElem?_cancel (c : Clock) (id other : AlarmId) :
    (c.cancel id).alarms[other]? =
      if id = other then (c.alarms[other]?).map fun a => { a with isCancelled := true }
      else c.alarms[other]? := by
  show (c.alarms.modify id _)[other]? = _
  rw [List.getElem?_modify]
  split <;> simp

theorem getElem?_take (c : Clock) (id other : AlarmId) :
    (c.take id).alarms[other]? =
      if id = other then (c.alarms[other]?).map fun a => { a with isTaken := true }
      else c.alarms[other]? := by
  show (c.alarms.modify id _)[other]? = _
  rw [List.getElem?_modify]
  split <;> simp

/-! ## The live alarms -/

/-- An alarm is live as long as it is neither cancelled nor run, whether or not its time has come. -/
theorem mem_live {c : Clock} {id : AlarmId} :
    id ∈ c.live ↔ ∃ a, c.alarms[id]? = some a ∧ a.isLive = true := by
  rw [live, List.mem_filter, List.mem_range]
  constructor
  · rintro ⟨hlt, hlive⟩
    rw [List.getElem?_eq_getElem hlt] at hlive ⊢
    exact ⟨_, rfl, hlive⟩
  · rintro ⟨a, ha, hlive⟩
    refine ⟨(List.getElem?_eq_some_iff.mp ha).1, ?_⟩
    rw [ha]
    exact hlive

/-- A live alarm has not been run. -/
theorem isUntaken_of_mem_live {c : Clock} {id : AlarmId} (h : id ∈ c.live) :
    c.isUntaken id = true := by
  obtain ⟨a, ha, hlive⟩ := mem_live.mp h
  simp only [Alarm.isLive, Bool.and_eq_true] at hlive
  rw [isUntaken, ha]
  exact hlive.2

/-- Arming adds one live alarm, behind the others. -/
theorem live_arm (c : Clock) (delay : Nat) : (c.arm delay).2.live = c.live ++ [c.alarms.length] := by
  have hlength : (c.arm delay).2.alarms.length = c.alarms.length + 1 := by simp [arm]
  rw [live, hlength, List.range_succ, List.filter_append, live]
  -- The places there were keep their alarms, and the alarm at the new place is live.
  congr 1
  · refine List.filter_congr fun id hid => ?_
    rw [getElem?_arm, if_neg (Nat.ne_of_lt (List.mem_range.mp hid))]
  · rw [List.filter_cons_of_pos (by rw [getElem?_arm, if_pos rfl]; rfl), List.filter_nil]

/-- Leaving out one of the live alarms, by whatever switches that one off. -/
theorem live_of_modify {c c' : Clock} {id : AlarmId} (hlength : c'.alarms.length = c.alarms.length)
    (hself : ∀ a, c'.alarms[id]? = some a → a.isLive = false)
    (hother : ∀ other, id ≠ other → c'.alarms[other]? = c.alarms[other]?) :
    c'.live = c.live.filter (· != id) := by
  rw [live, live, List.filter_filter, hlength]
  refine List.filter_congr fun other _ => ?_
  by_cases h : id = other
  · subst h
    cases ha : c'.alarms[id]? with
    | none => simp
    | some a => simpa using hself a ha
  · rw [hother other h]
    simp [Ne.symm h]

/-- Cancelling takes it out of the live ones, wherever it stands among them. -/
theorem live_cancel (c : Clock) (id : AlarmId) : (c.cancel id).live = c.live.filter (· != id) := by
  refine live_of_modify (length_cancel c id) (fun a ha => ?_) fun other h => ?_
  · rw [getElem?_cancel, if_pos rfl, Option.map_eq_some_iff] at ha
    obtain ⟨b, -, rfl⟩ := ha
    rfl
  · rw [getElem?_cancel, if_neg h]

/-- Running its callback does so too, which is why the two exclude each other. -/
theorem live_take (c : Clock) (id : AlarmId) : (c.take id).live = c.live.filter (· != id) := by
  refine live_of_modify (length_take c id) (fun a ha => ?_) fun other h => ?_
  · rw [getElem?_take, if_pos rfl, Option.map_eq_some_iff] at ha
    obtain ⟨b, -, rfl⟩ := ha
    exact Bool.and_false _
  · rw [getElem?_take, if_neg h]

/-- An alarm that is not live may be run without any other alarm noticing. -/
theorem live_take_of_not_mem {c : Clock} {id : AlarmId} (h : id ∉ c.live) :
    (c.take id).live = c.live := by
  rw [live_take]
  refine List.filter_eq_self.mpr fun other hother => ?_
  have hne : other ≠ id := fun he => h (he ▸ hother)
  simpa using hne

@[simp] theorem live_tick (c : Clock) (ticks : Nat) : (c.tick ticks).live = c.live := rfl

@[simp] theorem alarms_tick (c : Clock) (ticks : Nat) : (c.tick ticks).alarms = c.alarms := rfl

theorem tick_tick (c : Clock) (a b : Nat) : (c.tick a).tick b = c.tick (a + b) := by
  rw [tick, tick, tick, Nat.add_assoc]

/-! ## The alarms that are due -/

/-- Whether the deadline of an alarm has been reached. -/
def isReached (c : Clock) (id : AlarmId) : Bool := (c.alarms[id]?).any fun a => a.deadline ≤ c.now

/-- The alarms that are due are the live ones whose deadline has been reached, in the same order. -/
theorem due_eq_filter_live (c : Clock) : c.due = c.live.filter c.isReached := by
  rw [due, live, List.filter_filter]
  refine List.filter_congr fun id _ => ?_
  rw [isReached]
  cases c.alarms[id]? with
  | none => rfl
  | some a => exact Bool.and_comm _ _

end TextVault.Clock
