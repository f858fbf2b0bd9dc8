import TextVault.Proofs.Key.Telling

/-
  An eviction is a new beginning.

  Problem: a cache that has been used for a while has old alarms on its clock, some cancelled and some run,
  has given out numbers, and knows of secrets long gone. Once it is evicted none of this may show in what it
  does next.

  Program: `renewed` builds a new cache over the same credentials and sets it up by operations of its own.
  `behind` gives a cache a past: alarms that come before all of its own, so that its own are numbered on from
  them. `sights` is what can be seen of a run, step by step.

  Spec: after any run, an evicted cache is the renewed one behind the alarms there were (`eq_renewed_behind`).
  A past that is over does not show: every operation does to a cache behind it what it does without
  (`step_behind`), and so the two are seen to do the same in every run (`evict_renews`).
-/
namespace TextVault

/-! ## A clock behind other alarms -/

namespace Clock

/-- The same clock, with alarms armed before all of its own. -/
def behind (c : Clock) (past : List Alarm) : Clock := { c with alarms := past ++ c.alarms }

variable (c : Clock) (past : List Alarm)

/-- An alarm of the clock itself stands as many places later as there are alarms in the past. -/
theorem getElem?_behind (id : AlarmId) :
    (c.behind past).alarms[past.length + id]? = c.alarms[id]? := by
  show (past ++ c.alarms)[past.length + id]? = c.alarms[id]?
  rw [List.getElem?_append_right (Nat.le_add_right _ _), Nat.add_sub_cancel_left]

/-- What is done to one of its own alarms leaves the others alone. -/
theorem modify_behind (id : AlarmId) (f : Alarm → Alarm) :
    (past ++ c.alarms).modify (past.length + id) f = past ++ c.alarms.modify id f := by
  rw [List.modify_eq_take_drop, List.modify_eq_take_drop, List.take_length_add_append,
    List.drop_length_add_append, List.append_assoc]

theorem cancel_behind (id : AlarmId) :
    (c.behind past).cancel (past.length + id) = (c.cancel id).behind past := by
  simp only [cancel, behind, modify_behind]

theorem take_behind (id : AlarmId) :
    (c.behind past).take (past.length + id) = (c.take id).behind past := by
  simp only [take, behind, modify_behind]

theorem isUntaken_behind (id : AlarmId) :
    (c.behind past).isUntaken (past.length + id) = c.isUntaken id := by
  rw [isUntaken, isUntaken, getElem?_behind]

/-- **Alarms that are over never become due.** -/
theorem due_behind (hover : ∀ a ∈ past, a.isLive = false) :
    (c.behind past).due = c.due.map (past.length + ·) := by
  have hlength : (c.behind past).alarms.length = past.length + c.alarms.length := List.length_append
  rw [due, hlength, List.range_add, List.filter_append, due]
  refine (congrArg (· ++ _) (List.filter_eq_nil_iff.mpr fun id hid => ?_)).trans ?_
  · -- None of the earlier alarms is due, as none of them is live.
    have hlt := List.mem_range.mp hid
    have hget : (c.behind past).alarms[id]? = some past[id] :=
      (List.getElem?_append_left hlt).trans (List.getElem?_eq_getElem hlt)
    rw [hget]
    simp [Alarm.isDueAt, hover past[id] (List.getElem_mem hlt)]
  · rw [List.filter_map, List.nil_append]
    congr 1
    refine List.filter_congr fun id _ => ?_
    rw [Function.comp, getElem?_behind]
    rfl

end Clock

/-! ## A cache behind other alarms -/

namespace KeyCache

/-- The same cache with a past: its alarms come after others, and are numbered on from them. -/
def behind (k : KeyCache) (past : List Alarm) : KeyCache :=
  { k with
    clock := k.clock.behind past
    alarm := k.alarm.map fun held => ⟨past.length + held.number, past.length + held.id⟩
    nextNumber := past.length + k.nextNumber
    callbacks := List.range past.length ++ k.callbacks.map (past.length + ·) }

/-- The same operation, where alarms are numbered on from so many others. -/
def Op.later (earlier : Nat) : Op → Op
  | fire id => fire (earlier + id)
  | op => op

variable (k : KeyCache) (past : List Alarm)

/-- **The operations do not see the past.** Here and in the lemmas that follow: what an operation does to a cache with
a past is what it does to the cache, with the same past before it. The alarm held is given up at its later place. -/
theorem cancelAlarm_behind : (k.behind past).cancelAlarm = k.cancelAlarm.behind past := by
  cases h : k.alarm with
  | none =>
    rw [cancelAlarm_of_none h]
    exact cancelAlarm_of_none (congrArg (Option.map _) h)
  | some held =>
    rw [cancelAlarm_of_some h, cancelAlarm_of_some (congrArg (Option.map _) h)]
    simp only [behind, Clock.cancel_behind, Option.map_none]

/-- A new alarm comes after the past and after the alarms of the cache, and its number goes on from both. -/
theorem armAlarm_behind : (k.behind past).armAlarm = k.armAlarm.behind past := by
  simp only [armAlarm, behind, Clock.behind, Clock.arm, Clock.ticks, List.length_append,
    List.append_assoc, List.map_append, List.map_cons, List.map_nil, Option.map_some, Nat.add_assoc]

/-- Whether an alarm is wanted is a matter of the cache without its past. -/
theorem rearm_behind : (k.behind past).rearm = k.rearm.behind past := by
  have he : (k.behind past).isEligible = k.isEligible := rfl
  cases h : k.isEligible with
  | false => rw [rearm_of_not_eligible h, rearm_of_not_eligible (he.trans h), cancelAlarm_behind]
  | true =>
    rw [rearm_of_eligible h, rearm_of_eligible (he.trans h), cancelAlarm_behind, armAlarm_behind]

/-- Secrets have no past on the clock. -/
theorem scrub_behind (removed : Option Credential) :
    (k.behind past).scrub removed = (k.scrub removed).behind past := by
  cases removed with
  | none => rfl
  | some c => rfl

/-- An install reads the keyring and starts the interval anew; what it tells is the same. -/
theorem install_behind (c : Credential) :
    (k.behind past).install c = ((k.install c).1.behind past, (k.install c).2) := by
  cases h : k.ring.isScrubbed c with
  | true =>
    have hpast : (k.behind past).ring.isScrubbed c = true := h
    rw [install_of_isScrubbed h, install_of_isScrubbed hpast]
  | false =>
    have hpast : (k.behind past).ring.isScrubbed c = false := h
    refine Prod.ext ?_ ?_
    · rw [fst_install h, fst_install hpast, ← scrub_behind, ← rearm_behind]
      rfl
    · rw [snd_install h, snd_install hpast]
      rfl

/-- So is what an eviction tells. -/
theorem evict_behind : (k.behind past).evict = (k.evict.1.behind past, k.evict.2) := by
  rw [evict_eq, evict_eq, cancelAlarm_behind]
  refine Prod.ext ?_ rfl
  show KeyCache.mk ((k.behind past).scrub k.credential).ring _ _ _ _ _ _ _ _ = _
  rw [scrub_behind]
  rfl

/-! ### Callbacks -/

/-- A callback compares two numbers that have both been moved on by the past, so it finds them equal or different as
before. -/
theorem onAlarm_behind (number : Nat) :
    (k.behind past).onAlarm (past.length + number) =
      ((k.onAlarm number).1.behind past, (k.onAlarm number).2) := by
  cases h : k.alarm with
  | none =>
    have hpast : (k.behind past).alarm = none := congrArg (Option.map _) h
    simp only [onAlarm, h, hpast]
  | some held =>
    have hpast : (k.behind past).alarm = some ⟨past.length + held.number, past.length + held.id⟩ :=
      congrArg (Option.map _) h
    simp only [onAlarm, h, hpast, Nat.add_left_cancel_iff]
    -- Both sides are numbered from the same start, so the held alarm is the one that fires on both or on neither.
    by_cases hn : held.number = number
    · rw [if_pos hn, if_pos hn]
      have hwaiting : ({ k.behind past with alarm := none } : KeyCache) =
          ({ k with alarm := none } : KeyCache).behind past := rfl
      rw [hwaiting, evict_behind]
      cases he : ({ k with alarm := none } : KeyCache).isEligible with
      | false =>
        have hpast : (({ k with alarm := none } : KeyCache).behind past).isEligible = false := he
        rw [hpast]
        rfl
      | true =>
        have hpast : (({ k with alarm := none } : KeyCache).behind past).isEligible = true := he
        rw [hpast]
        rfl
    · rw [if_neg hn, if_neg hn]

/-- The callback of an alarm brings its number along, moved on in the same way. -/
theorem callbacks_behind (id : AlarmId) :
    (k.behind past).callbacks[past.length + id]? = (k.callbacks[id]?).map (past.length + ·) := by
  show (List.range past.length ++ k.callbacks.map (past.length + ·))[past.length + id]? = _
  rw [List.getElem?_append_right (by simp), List.length_range, Nat.add_sub_cancel_left,
    List.getElem?_map]

/-- A callback is that of one of its own alarms. -/
theorem fire_behind (id : AlarmId) :
    (k.behind past).fire (past.length + id) = ((k.fire id).1.behind past, (k.fire id).2) := by
  have hpast : (k.behind past).clock.isUntaken (past.length + id) = k.clock.isUntaken id :=
    k.clock.isUntaken_behind past id
  cases hu : k.clock.isUntaken id with
  | false =>
    rw [fire, fire, hpast, hu]
    rfl
  | true =>
    -- Taking a later alarm leaves the earlier ones as they are.
    have htaken : ({ k.behind past with clock := (k.behind past).clock.take (past.length + id) } :
        KeyCache) = ({ k with clock := k.clock.take id } : KeyCache).behind past := by
      show KeyCache.mk _ ((k.clock.behind past).take (past.length + id)) _ _ _ _ _ _ _ = _
      rw [Clock.take_behind]
      rfl
    rw [fire, fire, hpast, hu]
    simp only [if_true, htaken, callbacks_behind]
    cases k.callbacks[id]? with
    | none => rfl
    | some number => exact onAlarm_behind _ past number

theorem fireAll_behind (ids : List AlarmId) :
    (k.behind past).fireAll (ids.map (past.length + ·)) =
      ((k.fireAll ids).1.behind past, (k.fireAll ids).2) := by
  induction ids generalizing k with
  | nil => rfl
  | cons id ids ih => rw [List.map_cons, fireAll_cons, fireAll_cons, fire_behind, ih]

/-- **Time runs the same callbacks**, since nothing of the past is live and so nothing of it is due. -/
theorem advance_behind (hover : ∀ a ∈ past, a.isLive = false) (ticks : Nat) :
    (k.behind past).advance ticks = ((k.advance ticks).1.behind past, (k.advance ticks).2) := by
  have hticked : ({ k.behind past with clock := (k.behind past).clock.tick ticks } : KeyCache) =
      ({ k with clock := k.clock.tick ticks } : KeyCache).behind past := rfl
  have hdue : (({ k with clock := k.clock.tick ticks } : KeyCache).behind past).clock.due =
      (k.clock.tick ticks).due.map (past.length + ·) := (k.clock.tick ticks).due_behind past hover
  rw [advance, settle, hticked, hdue, fireAll_behind]
  rfl

/-! ### Operations -/

/-- **A past that is over does not show** in what an operation does. -/
theorem step_behind (hover : ∀ a ∈ past, a.isLive = false) (op : Op) :
    (k.behind past).step (op.later past.length) = ((k.step op).1.behind past, (k.step op).2) := by
  cases op with
  | create bytes => rfl
  | install c => exact k.install_behind past c
  | evict => exact k.evict_behind past
  | showSurface =>
    have hshown := cancelAlarm_behind { k with surfaces := k.surfaces + 1 } past
    exact congrArg (·, []) hshown
  | hideSurface =>
    have hhidden := rearm_behind { k with surfaces := k.surfaces - 1 } past
    exact congrArg (·, _) hhidden
  | setPolicy p =>
    have hset := rearm_behind { k with policy := p } past
    exact congrArg (·, []) hset
  | setUpgrading on => rfl
  | fire id => exact k.fire_behind past id
  | advance ticks => exact k.advance_behind past hover ticks

/-! ## A new cache -/

/-- A new cache over the same credentials, set up as this one is by operations of its own. -/
def renewed (k : KeyCache) : KeyCache :=
  (({ start k.policy k.clock with ring := k.ring } : KeyCache).run
    (.setUpgrading k.upgrading :: List.replicate k.surfaces .showSurface)).1

/-- Showing surfaces to a cache without an alarm only counts them. -/
theorem fst_run_showSurface {k : KeyCache} (h : k.alarm = none) (n : Nat) :
    (k.run (List.replicate n .showSurface)).1 = { k with surfaces := k.surfaces + n } := by
  induction n generalizing k with
  | zero => rfl
  | succ n ih =>
    have hshown : (k.step .showSurface).1 = { k with surfaces := k.surfaces + 1 } :=
      cancelAlarm_of_none h
    have hmore := ih (k := { k with surfaces := k.surfaces + 1 }) h
    rw [List.replicate_succ, run_cons, hshown]
    refine hmore.trans ?_
    simp only [Nat.add_assoc, Nat.add_comm 1 n]

/-- Such a cache is a new one but for what it was set up with: it has no alarm and no credential, and gave out no
numbers. -/
theorem renewed_eq (k : KeyCache) :
    k.renewed =
      { start k.policy k.clock with
        ring := k.ring, surfaces := k.surfaces, upgrading := k.upgrading } := by
  rw [renewed, run_cons, fst_run_showSurface rfl]
  show KeyCache.mk _ _ _ (0 + k.surfaces) _ _ _ _ _ = _
  rw [Nat.zero_add]
  rfl

/-- **An evicted cache is a new one behind the alarms there were.** -/
theorem eq_renewed_behind {k : KeyCache} (h : Booked k) (hcredential : k.credential = none)
    (halarm : k.alarm = none) : k = k.renewed.behind k.clock.alarms := by
  obtain ⟨ring, clock, credential, surfaces, policy, alarm, nextNumber, callbacks, upgrading⟩ := k
  obtain rfl : credential = none := hcredential
  obtain rfl : alarm = none := halarm
  obtain rfl : nextNumber = clock.alarms.length := h.nextNumber
  obtain rfl : callbacks = List.range clock.alarms.length := h.callbacks
  simp only [renewed_eq, behind, start, Clock.behind, Clock.bare, List.append_nil, Option.map_none,
    List.map_nil, Nat.add_zero]

/-- Where no alarm is held, those there were are over. -/
theorem InOrder.isLive_eq_false {k : KeyCache} (h : InOrder k) (halarm : k.alarm = none) :
    ∀ a ∈ k.clock.alarms, a.isLive = false := by
  intro a ha
  obtain ⟨id, hid⟩ := List.mem_iff_getElem?.mp ha
  refine Bool.eq_false_iff.mpr fun hlive => ?_
  have hmem : id ∈ k.clock.live := Clock.mem_live.mpr ⟨a, hid, hlive⟩
  rw [h.live, halarm] at hmem
  exact List.not_mem_nil hmem

/-! ## What can be seen -/

/-- What can be seen of a cache. -/
structure Sight where
  credential : Option Credential
  /-- Of each credential ever made, whether it has been scrubbed. -/
  scrubbed : List Bool
  surfaces : Nat
  policy : LockPolicy
  isArmed : Bool
  /-- Alarms with their delays, and whether they have been cancelled or run. -/
  alarms : List Alarm
  deriving DecidableEq, Repr

/-- What can be seen of a cache by one who does not look at the alarms that were armed first. -/
def sight (k : KeyCache) (earlier : Nat) : Sight where
  credential := k.credential
  scrubbed := (List.range k.ring.secrets.length).map fun id => k.ring.isScrubbed ⟨id⟩
  surfaces := k.surfaces
  policy := k.policy
  isArmed := k.isArmed
  alarms := k.clock.alarms.drop earlier

/-- What is seen after each operation of a run, and what the operation did. -/
def sights (k : KeyCache) (earlier : Nat) : List Op → List (Sight × List Act)
  | [] => []
  | op :: ops => ((k.step op).1.sight earlier, (k.step op).2) :: (k.step op).1.sights earlier ops

/-- One who does not look at the past sees the cache as it is without one. -/
theorem sight_behind : (k.behind past).sight past.length = k.sight 0 := by
  have harmed : (k.behind past).isArmed = k.isArmed := Option.isSome_map
  have halarms : (k.behind past).clock.alarms.drop past.length = k.clock.alarms := List.drop_left
  rw [sight, harmed, halarms]
  rfl

/-- And sees it so after every operation, with the same acts, if the callbacks run by hand are those of the later
alarms. -/
theorem sights_behind (hover : ∀ a ∈ past, a.isLive = false) (ops : List Op) :
    (k.behind past).sights past.length (ops.map (Op.later past.length)) = k.sights 0 ops := by
  induction ops generalizing k with
  | nil => rfl
  | cons op ops ih => rw [List.map_cons, sights, step_behind k past hover, sight_behind, ih, sights]

/-- **An eviction is a new beginning.** After any run and an eviction, a cache is seen to do in every further
run what a new cache does that is built over the same credentials with the same policy, and on which as many
surfaces are shown and upgrading is set alike: what is installed and what has been scrubbed, the count of
surfaces, whether an alarm is held, the alarms armed since with what has become of them, and all that the
operations do. Alarms that the further run fires are numbered from its beginning. -/
theorem evict_renews (p : LockPolicy) (clock : Clock) (before ops : List Op) :
    let k := ((start p clock).run before).1.evict.1
    let earlier := k.clock.alarms.length
    k.sight earlier = k.renewed.sight 0 ∧
      k.sights earlier (ops.map (Op.later earlier)) = k.renewed.sights 0 ops := by
  intro k earlier
  have h : InOrder k := (InOrder.run p clock before).toBooked.evict
  have hcredential : k.credential = none := credential_evict _
  have halarm : k.alarm = none := alarm_evict _
  -- What is left of an evicted cache is a renewed one behind the alarms of the past.
  have hbehind := eq_renewed_behind h.toBooked hcredential halarm
  -- None of those alarms is live, so none of them can make a difference.
  have hover := h.isLive_eq_false halarm
  constructor
  · have hsight := sight_behind k.renewed k.clock.alarms
    rw [← hbehind] at hsight
    exact hsight
  · have hsights := sights_behind k.renewed k.clock.alarms hover ops
    rw [← hbehind] at hsights
    exact hsights

end KeyCache

end TextVault
