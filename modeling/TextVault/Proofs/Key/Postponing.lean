import TextVault.Proofs.Key.Deadline

/-
  Hiding a surface where none is visible.

  Problem: a call that hides a surface where none is visible is not counted, and is told to the log. It is not
  without effect for all that: it starts the interval anew like a call that hides the last surface, so whoever
  repeats it keeps the credential unlocked.

  Program: `interval` is what the cache waits before it withdraws the credential. `nudges` waits and hides,
  again and again.

  Spec: such a call leaves everything but the alarm (`hideSurface_of_none`), and the alarm too exactly if none
  is wanted (`hideSurface_eq_self_iff`). If one is wanted, a deadline that was at most an interval away
  (`Near.run`) is an interval away after it (`OnTime.hideSurface`). So calls that come in time after one another
  put the deadline off for good (`credential_run_nudges`).
-/
namespace TextVault.KeyCache

/-! ## What is left alone -/

variable {k : KeyCache}

/-- Starting anew touches the alarm and the books on it only. -/
theorem rearm_eq (k : KeyCache) :
    k.rearm =
      { k with
        alarm := k.rearm.alarm
        nextNumber := k.rearm.nextNumber
        callbacks := k.rearm.callbacks
        clock := k.rearm.clock } := by
  cases he : k.isEligible with
  | false => rw [rearm_of_not_eligible he, cancelAlarm_eq]
  | true =>
    rw [rearm_of_eligible he, cancelAlarm_eq]
    rfl

theorem now_cancelAlarm (k : KeyCache) : k.cancelAlarm.clock.now = k.clock.now := by
  cases ha : k.alarm with
  | none => rw [cancelAlarm_of_none ha]
  | some held => rw [cancelAlarm_of_some ha, Clock.now_cancel]

theorem second_cancelAlarm (k : KeyCache) : k.cancelAlarm.clock.second = k.clock.second := by
  cases ha : k.alarm with
  | none => rw [cancelAlarm_of_none ha]
  | some held =>
    rw [cancelAlarm_of_some ha]
    rfl

/-- Starting anew takes no time. -/
theorem now_rearm (k : KeyCache) : k.rearm.clock.now = k.clock.now := by
  rw [rearm]
  split
  · exact now_cancelAlarm k
  · exact now_cancelAlarm k

theorem second_rearm (k : KeyCache) : k.rearm.clock.second = k.clock.second := by
  rw [rearm]
  split
  · exact second_cancelAlarm k
  · exact second_cancelAlarm k

/-- How long the cache waits before it withdraws the credential, in ticks. -/
def interval (k : KeyCache) : Nat := k.clock.ticks k.policy.interval

/-- So the interval is as long as before. -/
theorem interval_rearm (k : KeyCache) : k.rearm.interval = k.interval := by
  rw [interval, interval, policy_rearm, Clock.ticks, Clock.ticks, second_rearm]

theorem freshDeadline_of_eligible (he : k.isEligible = true) :
    k.freshDeadline = some (k.clock.now + k.interval) := by
  rw [freshDeadline, if_pos he]
  rfl

/-- Where no surface is visible, hiding one is starting anew. -/
theorem hideSurface_of_none (hnone : k.surfaces = 0) :
    k.hideSurface = (k.rearm, [.warn .noSurface]) := by
  have hsame : ({ k with surfaces := k.surfaces - 1 } : KeyCache) = k := by
    cases k
    obtain rfl := hnone
    rfl
  rw [hideSurface, hsame, if_pos hnone]

/-- **Nothing at all changes exactly if no alarm is wanted.** -/
theorem InOrder.hideSurface_eq_self_iff (h : InOrder k) (hnone : k.surfaces = 0) :
    k.hideSurface.1 = k ↔ k.isEligible = false := by
  rw [hideSurface_of_none hnone]
  constructor
  · intro hsame
    refine Bool.eq_false_iff.mpr fun he => ?_
    have hnumber : k.rearm.nextNumber = k.nextNumber + 1 := by
      rw [rearm_of_eligible he, cancelAlarm_eq]
      rfl
    exact Nat.succ_ne_self _ (hnumber.symm.trans (congrArg nextNumber hsame))
  · intro he
    show k.rearm = k
    rw [rearm_of_not_eligible he]
    exact cancelAlarm_of_none (alarm_eq_none (h.armed.trans he))

/-! ## A deadline is at most an interval away -/

/-- The deadline is at most an interval away. -/
structure Near (k : KeyCache) (deadline : Option Nat) : Prop extends OnTime k deadline where
  near : ∀ t, deadline = some t → t ≤ k.clock.now + k.interval

namespace OnTime

variable {deadline : Option Nat}

/-- Without a deadline there is nothing to show. -/
theorem near_none (h : OnTime k none) : Near k none :=
  ⟨h, fun _ hn => absurd hn.symm (Option.some_ne_none _)⟩

/-- A deadline that has just been set is an interval away. -/
theorem near_fresh (h : OnTime k k.freshDeadline) : Near k k.freshDeadline := by
  refine ⟨h, fun t ht => ?_⟩
  rw [freshDeadline] at ht
  split at ht
  · exact Nat.le_of_eq (Option.some.inj ht).symm
  · cases ht

/-- **Hiding where nothing is visible sets the deadline anew.** -/
theorem hideSurface (h : OnTime k deadline) (hnone : k.surfaces = 0) :
    OnTime k.hideSurface.1 k.hideSurface.1.freshDeadline := by
  rw [hideSurface_of_none hnone]
  exact h.toBooked.onTime_rearm h.minutes

end OnTime

namespace Near

variable {deadline : Option Nat}

/-- Without an alarm that is wanted there is no deadline. -/
theorem next_of_idle (h : Near k deadline) {op : Op} (hop : op.isTimed = true)
    (hrestarts : k.restarts op = false) (he : (k.step op).1.isEligible = false) :
    Near (k.step op).1 (k.nextDeadline deadline op) := by
  have hstep := h.toOnTime.step hop
  rw [nextDeadline, hrestarts, he] at hstep ⊢
  exact hstep.near_none

/-- A deadline that stays is no farther away later. -/
theorem next_of_kept (h : Near k deadline) {op : Op} (hop : op.isTimed = true)
    (hrestarts : k.restarts op = false) (hnow : k.clock.now ≤ (k.step op).1.clock.now)
    (hinterval : (k.step op).1.interval = k.interval) :
    Near (k.step op).1 (k.nextDeadline deadline op) := by
  refine ⟨h.toOnTime.step hop, fun t ht => ?_⟩
  rw [nextDeadline, hrestarts] at ht
  have hkept : deadline = some t := by
    cases he : (k.step op).1.isEligible with
    | true => rwa [he] at ht
    | false =>
      rw [he] at ht
      cases ht
  have hle := h.near t hkept
  omega

/-- A deadline that is set by an operation is an interval away. -/
theorem next_of_restarts (h : Near k deadline) {op : Op} (hop : op.isTimed = true)
    (hrestarts : k.restarts op = true) : Near (k.step op).1 (k.nextDeadline deadline op) := by
  have hstep := h.toOnTime.step hop
  rw [nextDeadline, hrestarts] at hstep ⊢
  exact hstep.near_fresh

/-- Every operation on the clock leaves the deadline at most an interval away. -/
theorem step (h : Near k deadline) {op : Op} (hop : op.isTimed = true) :
    Near (k.step op).1 (k.nextDeadline deadline op) := by
  cases op with
  | create bytes => exact h.next_of_kept hop rfl (Nat.le_refl _) rfl
  | install c =>
    cases hs : k.ring.isScrubbed c with
    | true =>
      have hsame : (k.step (.install c)).1 = k := congrArg Prod.fst (install_of_isScrubbed hs)
      exact h.next_of_kept hop (by rw [restarts, hs]; rfl) (Nat.le_of_eq (by rw [hsame])) (by rw [hsame])
    | false => exact h.next_of_restarts hop (by rw [restarts, hs]; rfl)
  | evict => exact h.next_of_idle hop rfl (isEligible_evict k)
  | showSurface =>
    have hshown : ({ k with surfaces := k.surfaces + 1 } : KeyCache).isEligible = false := by
      simp [isEligible]
    exact h.next_of_idle hop rfl ((isEligible_cancelAlarm _).trans hshown)
  | hideSurface => exact h.next_of_restarts hop rfl
  | setPolicy p => exact h.next_of_restarts hop rfl
  | setUpgrading on => exact h.next_of_kept hop rfl (Nat.le_refl _) rfl
  | fire id => exact absurd hop Bool.false_ne_true
  | advance ticks =>
    -- Time that reaches the deadline leaves the cache idle; less time leaves the deadline where it was.
    rcases le_or_lt deadline (k.clock.now + ticks) with ⟨t, rfl, hle⟩ | hlt
    · exact h.next_of_idle hop rfl (h.withdrawn hle).isSome_eq.symm
    · have hpassed : (k.step (.advance ticks)).1 = _ := congrArg Prod.fst (h.advance_of_lt hlt)
      exact h.next_of_kept hop rfl (by rw [hpassed]; exact Nat.le_add_right _ _)
        (by rw [hpassed]; rfl)

/-- **The deadline never gets further away than an interval**, since it is set to an interval from now or left where
it is while time goes by. -/
theorem run (h : Near k deadline) {ops : List Op} (hops : ∀ op ∈ ops, op.isTimed = true) :
    Near (k.run ops).1 (k.deadlineAfter deadline ops) := by
  induction ops generalizing k deadline with
  | nil => exact h
  | cons op ops ih =>
    obtain ⟨hop, hrest⟩ := List.forall_mem_cons.mp hops
    exact ih (h.step hop) hrest

end Near

/-! ## Time after the call -/

namespace OnTime

variable {deadline : Option Nat}

/-- The credential is there until its deadline. -/
theorem credential_advance_iff {t : Nat} (h : OnTime k (some t)) (ticks : Nat) :
    (k.advance ticks).1.credential = none ↔ t ≤ k.clock.now + ticks := by
  constructor
  · intro hgone
    refine Nat.le_of_not_lt fun hlt => ?_
    have heligible : k.isEligible = true := h.isSome_eq.symm
    rw [h.advance_of_lt fun u hu => Option.some.inj hu ▸ hlt] at hgone
    have hc := ((isEligible_iff k).mp heligible).2.1
    rw [hgone] at hc
    cases hc
  · intro hle
    obtain ⟨held, -, hadvance⟩ := h.advance_of_le hle
    rw [hadvance, credential_evict]

/-- After the call it is there for an interval. -/
theorem credential_advance_hideSurface_iff {t : Nat} (h : OnTime k (some t)) (hnone : k.surfaces = 0)
    (ticks : Nat) :
    (k.hideSurface.1.advance ticks).1.credential = none ↔ k.interval ≤ ticks := by
  have heligible : k.isEligible = true := h.isSome_eq.symm
  have hfresh := h.hideSurface hnone
  rw [hideSurface_of_none hnone] at hfresh ⊢
  rw [freshDeadline_of_eligible ((isEligible_rearm k).trans heligible), interval_rearm] at hfresh
  rw [hfresh.credential_advance_iff ticks, now_rearm]
  exact Nat.add_le_add_iff_left

end OnTime

/-- Hides a surface and waits, again and again. -/
def nudges (ticks : Nat) : Nat → List Op
  | 0 => []
  | n + 1 => .hideSurface :: .advance ticks :: nudges ticks n

/-- **Calls that come in time after one another keep the credential for good.** -/
theorem credential_run_nudges {t ticks : Nat} (h : OnTime k (some t)) (hnone : k.surfaces = 0)
    (hlt : ticks < k.interval) (n : Nat) :
    (k.run (nudges ticks n)).1.credential = k.credential := by
  induction n generalizing k t with
  | zero => rfl
  | succ n ih =>
    have heligible : k.isEligible = true := h.isSome_eq.symm
    have hfresh := h.hideSurface hnone
    rw [hideSurface_of_none hnone,
      freshDeadline_of_eligible ((isEligible_rearm k).trans heligible)] at hfresh
    -- The wait is over before the deadline, so all that passes is time.
    have hbefore : k.rearm.clock.now + ticks < k.rearm.clock.now + k.rearm.interval := by
      rw [interval_rearm]
      exact Nat.add_lt_add_left hlt _
    have hbefore' : ∀ u, some (k.rearm.clock.now + k.rearm.interval) = some u →
        k.rearm.clock.now + ticks < u := fun u hu => Option.some.inj hu ▸ hbefore
    have hwaited : (k.rearm.step (.advance ticks)).1 =
        { k.rearm with clock := k.rearm.clock.tick ticks } :=
      congrArg Prod.fst (hfresh.advance_of_lt hbefore')
    have hmore := ih (hfresh.tick hbefore') ((surfaces_rearm k).trans hnone)
      (Nat.lt_of_lt_of_eq hlt (interval_rearm k).symm)
    have hhidden : (k.step .hideSurface).1 = k.rearm := congrArg Prod.fst (hideSurface_of_none hnone)
    rw [nudges, run_cons, run_cons, hhidden, hwaited]
    exact hmore.trans (credential_rearm k)

/-- **Hiding a surface where none is visible puts the deadline off.** After any run such a call warns, takes no
time, and changes nothing but the alarm, and that neither exactly if none is wanted. If one is wanted, after
a run on the clock under policies with an interval, its deadline is at most an interval away, and the
credential is withdrawn when it is reached; after the call it is withdrawn an interval from the call. Calls
that follow one another in less than an interval keep it for good. -/
theorem postponed_of_run (p : LockPolicy) (clock : Clock) (ops : List Op) :
    let k := ((start p clock).run ops).1
    k.surfaces = 0 →
    (∃ alarm nextNumber callbacks clock, clock.now = k.clock.now ∧
      k.hideSurface = ({ k with alarm, nextNumber, callbacks, clock }, [.warn .noSurface])) ∧
    (k.hideSurface.1 = k ↔ k.isEligible = false) ∧
    (p.timeoutMinutes ≠ 0 → (∀ op ∈ ops, op.isTimed = true) → k.isEligible = true →
      ∃ t, (start p clock).deadlineAfter none ops = some t ∧
        t ≤ k.clock.now + k.interval ∧
        (∀ ticks, (k.advance ticks).1.credential = none ↔ t ≤ k.clock.now + ticks) ∧
        (∀ ticks, (k.hideSurface.1.advance ticks).1.credential = none ↔ k.interval ≤ ticks) ∧
        ∀ ticks n, ticks < k.interval →
          (k.run (nudges ticks n)).1.credential = k.credential) := by
  intro k hnone
  refine ⟨?_, (InOrder.run p clock ops).hideSurface_eq_self_iff hnone, fun hp hops he => ?_⟩
  · rw [hideSurface_of_none hnone, rearm_eq]
    exact ⟨_, _, _, k.rearm.clock, now_rearm k, rfl⟩
  · have h : Near k ((start p clock).deadlineAfter none ops) :=
      (OnTime.start clock hp).near_none.run hops
    obtain ⟨t, ht⟩ := Option.isSome_iff_exists.mp (h.isSome_eq.trans he)
    rw [ht] at h ⊢
    exact ⟨t, rfl, h.near t rfl, h.credential_advance_iff,
      h.credential_advance_hideSurface_iff hnone,
      fun ticks n hlt => credential_run_nudges h.toOnTime hnone hlt n⟩

/-- Hidden after four of five minutes, a surface that was never there keeps the credential for five more. -/
theorem postponed_of_run_unlocked :
    let ops := [.create [1], .install ⟨0⟩, .advance 240]
    let k := ((start (.after 5) {}).run ops).1
    (LockPolicy.after 5).timeoutMinutes ≠ 0 ∧ (∀ op ∈ ops, op.isTimed = true) ∧ k.surfaces = 0 ∧
      k.isEligible = true ∧
      (k.hideSurface.1.advance 299).1.credential ≠ none ∧
      (k.hideSurface.1.advance 300).1.credential = none := by
  have h := postponed_of_run (.after 5) {} [.create [1], .install ⟨0⟩, .advance 240] (by decide)
  obtain ⟨t, -, -, -, hcall, -⟩ := h.2.2 (by decide) (by decide) (by decide)
  refine ⟨by decide, by decide, by decide, by decide, ?_, ?_⟩
  · exact mt (hcall 299).mp (by decide)
  · exact (hcall 300).mpr (by decide)

/-- Without the call the credential is withdrawn when the five minutes are over; with it, it is not. -/
theorem not_ignored_when_unlocked :
    let before := [.create [1], .install ⟨0⟩, .advance 240]
    let k := ((start (.after 5) {}).run before).1
    k.surfaces = 0 ∧ k.hideSurface.1 ≠ k ∧
      ((start (.after 5) {}).run (before ++ [.advance 60])).1.credential = none ∧
      ((start (.after 5) {}).run (before ++ [.hideSurface, .advance 60])).1.credential =
        some ⟨0⟩ := by
  decide

end TextVault.KeyCache
