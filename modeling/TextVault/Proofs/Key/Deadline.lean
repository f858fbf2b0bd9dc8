import TextVault.Proofs.Key.Alarm

/-
  When the clock withdraws the credential.

  Problem: alarms that were cancelled stay on the clock, and the interval starts anew with every alarm, so
  which of them becomes due, and when, depends on all that went before.

  Program: `deadlineAfter` says beside a run when the credential is to be withdrawn, from the operations
  and from what the cache is eligible for, with no look at an alarm.

  Spec: `OnTime` says that the alarm held, and it alone, is to go off at that deadline, which is still to
  come; every operation on the clock keeps it (`OnTime.step`). Time up to the deadline passes unnoticed
  (`OnTime.advance_of_lt`); the credential is withdrawn when it is reached (`OnTime.advance_of_le`).
-/
namespace TextVault.KeyCache

/-! ## The deadline -/

/-- An operation of a cache whose alarms run by the clock only, under policies with an interval. -/
def Op.isTimed : Op → Bool
  | .fire _ => false
  | .setPolicy p => p.timeoutMinutes != 0
  | _ => true

/-- Whether the interval starts anew with an operation. -/
def restarts (k : KeyCache) : Op → Bool
  | .install c => !k.ring.isScrubbed c
  | .hideSurface => true
  | .setPolicy _ => true
  | _ => false

/-- The end of an interval that starts now, if the cache is to wait for one. -/
def freshDeadline (k : KeyCache) : Option Nat :=
  if k.isEligible then some (k.clock.now + k.clock.ticks k.policy.interval) else none

/-- The deadline after an operation, from the one before it. -/
def nextDeadline (k : KeyCache) (deadline : Option Nat) (op : Op) : Option Nat :=
  let after := (k.step op).1
  if k.restarts op then after.freshDeadline
  else if after.isEligible then deadline
  else none

/-- The deadline after a run, from the one before it. -/
def deadlineAfter (k : KeyCache) (deadline : Option Nat) : List Op → Option Nat
  | [] => deadline
  | op :: ops => (k.step op).1.deadlineAfter (k.nextDeadline deadline op) ops

theorem freshDeadline_scrub (k : KeyCache) (removed : Option Credential) :
    (k.scrub removed).freshDeadline = k.freshDeadline := by
  cases removed with
  | none => rfl
  | some c => rfl

/-- The deadline has been reached, or all that passes is time. -/
theorem le_or_lt (deadline : Option Nat) (time : Nat) :
    (∃ t, deadline = some t ∧ t ≤ time) ∨ ∀ t, deadline = some t → time < t := by
  cases deadline with
  | none => exact Or.inr fun _ hn => nomatch hn
  | some t =>
    rcases Nat.lt_or_ge time t with hlt | hle
    · exact Or.inr fun _ ht => Option.some.inj ht ▸ hlt
    · exact Or.inl ⟨t, rfl, hle⟩

/-! ## The deadline of the alarm held -/

/-- When the alarm held is to go off. -/
def heldDeadline (k : KeyCache) : Option Nat :=
  k.alarm.bind fun held => (k.clock.alarms[held.id]?).map Alarm.deadline

theorem heldDeadline_of_none {k : KeyCache} (h : k.alarm = none) : k.heldDeadline = none := by
  rw [heldDeadline, h]
  rfl

theorem heldDeadline_of_some {k : KeyCache} {held : HeldAlarm} {a : Alarm}
    (hheld : k.alarm = some held) (ha : k.clock.alarms[held.id]? = some a) :
    k.heldDeadline = some a.deadline := by
  rw [heldDeadline, hheld]
  show (k.clock.alarms[held.id]?).map Alarm.deadline = _
  rw [ha]
  rfl

/-- A new alarm ends an interval that starts now. -/
theorem heldDeadline_armAlarm (k : KeyCache) :
    k.armAlarm.heldDeadline = some (k.clock.now + k.clock.ticks k.policy.interval) := by
  have harm := Clock.getElem?_arm k.clock (k.clock.ticks k.policy.interval) k.clock.alarms.length
  rw [if_pos rfl] at harm
  have hheld : k.armAlarm.alarm = some ⟨k.nextNumber, k.clock.alarms.length⟩ := rfl
  exact heldDeadline_of_some hheld harm

/-- Starting anew, the alarm goes off an interval from now. -/
theorem heldDeadline_rearm (k : KeyCache) : k.rearm.heldDeadline = k.rearm.freshDeadline := by
  cases he : k.isEligible with
  | false =>
    rw [freshDeadline, isEligible_rearm, he, rearm_of_not_eligible he]
    exact heldDeadline_of_none (alarm_cancelAlarm k)
  | true =>
    rw [freshDeadline, isEligible_rearm, he, if_pos rfl, rearm_of_eligible he]
    exact heldDeadline_armAlarm k.cancelAlarm

/-! ## On time -/

/-- The alarm held goes off at the given deadline, which is still to come. -/
structure OnTime (k : KeyCache) (deadline : Option Nat) : Prop extends InOrder k where
  held : k.heldDeadline = deadline
  pending : ∀ t, deadline = some t → k.clock.now < t
  minutes : k.policy.timeoutMinutes ≠ 0

/-- An interval that starts now ends later. -/
theorem lt_of_freshDeadline {k : KeyCache} (hminutes : k.policy.timeoutMinutes ≠ 0) {t : Nat}
    (h : k.freshDeadline = some t) : k.clock.now < t := by
  rw [freshDeadline] at h
  split at h
  · obtain rfl := Option.some.inj h
    exact Nat.lt_add_of_pos_right (Nat.mul_pos (LockPolicy.interval_pos hminutes) k.clock.second_pos)
  · nomatch h

/-- A cache that is in order and waits for nothing has no deadline to miss. -/
theorem InOrder.onTime_of_not_eligible {k : KeyCache} (h : InOrder k) (he : k.isEligible = false)
    (hminutes : k.policy.timeoutMinutes ≠ 0) : OnTime k none where
  toInOrder := h
  held := heldDeadline_of_none (alarm_eq_none (h.armed.trans he))
  pending := fun _ hn => nomatch hn
  minutes := hminutes

/-- Starting anew sets the deadline. -/
theorem Booked.onTime_rearm {k : KeyCache} (h : Booked k) (hminutes : k.policy.timeoutMinutes ≠ 0) :
    OnTime k.rearm k.rearm.freshDeadline := by
  have hstill : k.rearm.policy.timeoutMinutes ≠ 0 := by rw [policy_rearm]; exact hminutes
  exact ⟨h.rearm, heldDeadline_rearm k, fun _ ht => lt_of_freshDeadline hstill ht, hstill⟩

namespace OnTime

variable {k : KeyCache} {deadline : Option Nat}

/-- Secrets and upgrades have no part in the deadline. -/
theorem frame (h : OnTime k deadline) (ring : Keyring) (upgrading : Bool) :
    OnTime { k with ring, upgrading } deadline :=
  ⟨h.toInOrder.frame ring upgrading, h.held, h.pending, h.minutes⟩

theorem scrub (h : OnTime k deadline) (removed : Option Credential) :
    OnTime (k.scrub removed) deadline := by
  cases removed with
  | none => exact h
  | some c => exact h.frame (k.ring.scrub c) k.upgrading

/-- There is a deadline exactly when the cache is eligible. -/
theorem isSome_eq (h : OnTime k deadline) : deadline.isSome = k.isEligible := by
  rw [← h.armed, isArmed, ← h.held]
  cases hheld : k.alarm with
  | none =>
    rw [heldDeadline_of_none hheld]
    rfl
  | some held =>
    obtain ⟨a, ha, -, -⟩ := h.exists_alarm hheld
    rw [heldDeadline_of_some hheld ha]
    rfl

/-- A deadline is that of an alarm on the clock, which nobody has cancelled or run. -/
theorem exists_alarm_of_some {t : Nat} (h : OnTime k (some t)) :
    ∃ held a, k.alarm = some held ∧ k.clock.alarms[held.id]? = some a ∧ a.deadline = t := by
  cases hheld : k.alarm with
  | none =>
    have hnone := heldDeadline_of_none hheld
    rw [h.held] at hnone
    nomatch hnone
  | some held =>
    obtain ⟨a, ha, -, -⟩ := h.exists_alarm hheld
    have hsome := heldDeadline_of_some hheld ha
    rw [h.held] at hsome
    exact ⟨held, a, rfl, ha, (Option.some.inj hsome).symm⟩

/-! ## Time passes -/

/-- Nothing becomes due before the deadline. -/
theorem due_tick_of_lt (h : OnTime k deadline) {ticks : Nat}
    (hlt : ∀ t, deadline = some t → k.clock.now + ticks < t) : (k.clock.tick ticks).due = [] := by
  rw [Clock.due_eq_filter_live, Clock.live_tick, h.live, List.filter_eq_nil_iff]
  intro id hid
  obtain ⟨held, hheld, rfl⟩ := Option.map_eq_some_iff.mp (Option.mem_toList.mp hid)
  obtain ⟨a, ha, -, -⟩ := h.exists_alarm hheld
  have hbefore := hlt a.deadline (h.held.symm.trans (heldDeadline_of_some hheld ha))
  rw [Clock.isReached, Clock.alarms_tick, ha]
  show ¬ decide (a.deadline ≤ k.clock.now + ticks) = true
  rw [decide_eq_true_eq]
  exact Nat.not_le_of_gt hbefore

/-- At the deadline the alarm held becomes due, and it alone. -/
theorem due_tick_of_le {held : HeldAlarm} {a : Alarm} (h : OnTime k deadline)
    (hheld : k.alarm = some held) (ha : k.clock.alarms[held.id]? = some a) {ticks : Nat}
    (hle : a.deadline ≤ k.clock.now + ticks) : (k.clock.tick ticks).due = [held.id] := by
  rw [Clock.due_eq_filter_live, Clock.live_tick, h.live, hheld]
  refine List.filter_eq_self.mpr fun id hid => ?_
  obtain rfl := List.mem_singleton.mp hid
  rw [Clock.isReached, Clock.alarms_tick, ha]
  exact decide_eq_true hle

/-- **Time before the deadline passes unnoticed.** -/
theorem advance_of_lt (h : OnTime k deadline) {ticks : Nat}
    (hlt : ∀ t, deadline = some t → k.clock.now + ticks < t) :
    k.advance ticks = ({ k with clock := k.clock.tick ticks }, []) := by
  rw [advance, settle, h.due_tick_of_lt hlt]
  rfl

/-- **The credential is withdrawn at its deadline**, and nobody is told but of that. -/
theorem advance_of_le {t ticks : Nat} (h : OnTime k (some t)) (hle : t ≤ k.clock.now + ticks) :
    ∃ held, k.alarm = some held ∧
      k.advance ticks =
        ({ k.evict.1 with clock := (k.clock.tick ticks).take held.id }, k.evict.2) := by
  obtain ⟨held, a, hheld, ha, rfl⟩ := h.exists_alarm_of_some
  refine ⟨held, hheld, ?_⟩
  have hfire : KeyCache.fire { k with clock := k.clock.tick ticks } held.id = _ :=
    (h.toInOrder.tick ticks).fire_of_eq hheld
  rw [advance, settle, h.due_tick_of_le hheld ha hle, fireAll_cons, hfire, evict_eq, evict_eq]
  cases k.credential with
  | none => rfl
  | some c => rfl

/-- After an eviction there is no deadline any more. -/
theorem evict (h : OnTime k deadline) : OnTime k.evict.1 none :=
  h.toBooked.evict.onTime_of_not_eligible (isEligible_evict k) (by rw [evict_eq]; exact h.minutes)

/-- Once the credential is withdrawn there is nothing to wait for. -/
theorem withdrawn {t ticks : Nat} (h : OnTime k (some t)) (hle : t ≤ k.clock.now + ticks) :
    OnTime (k.advance ticks).1 none := by
  have horder : InOrder (k.advance ticks).1 := h.toInOrder.step (.advance ticks)
  obtain ⟨held, -, hadvance⟩ := h.advance_of_le hle
  rw [hadvance] at horder ⊢
  exact horder.onTime_of_not_eligible (isEligible_evict k) h.evict.minutes

/-- Time that stops short of the deadline leaves it where it is. -/
theorem tick (h : OnTime k deadline) {ticks : Nat}
    (hlt : ∀ t, deadline = some t → k.clock.now + ticks < t) :
    OnTime { k with clock := k.clock.tick ticks } deadline :=
  ⟨h.toInOrder.tick ticks, h.held, hlt, h.minutes⟩

/-! ## Every operation on the clock -/

/-- What starts nothing anew leaves the deadline, as long as the alarm held is to go off then. -/
theorem next_of_kept {op : Op} (hrestarts : k.restarts op = false)
    (h : OnTime (k.step op).1 deadline) : OnTime (k.step op).1 (k.nextDeadline deadline op) := by
  have hnext : k.nextDeadline deadline op = deadline := by
    rw [nextDeadline, hrestarts]
    show (if (k.step op).1.isEligible then deadline else none) = deadline
    -- Where there is a deadline the cache is eligible, and where there is none, none is left.
    rw [← h.isSome_eq]
    cases deadline with
    | none => rfl
    | some t => rfl
  rw [hnext]
  exact h

/-- What leaves the cache with nothing to wait for takes the deadline away. -/
theorem next_of_none {op : Op} (hrestarts : k.restarts op = false)
    (h : OnTime (k.step op).1 none) : OnTime (k.step op).1 (k.nextDeadline deadline op) := by
  rw [nextDeadline, hrestarts, ← h.isSome_eq]
  exact h

/-- Time withdraws the credential or changes nothing else. -/
theorem advance (h : OnTime k deadline) (ticks : Nat) :
    OnTime (k.step (.advance ticks)).1 (k.nextDeadline deadline (.advance ticks)) := by
  rcases le_or_lt deadline (k.clock.now + ticks) with ⟨t, rfl, hle⟩ | hlt
  · exact next_of_none rfl (h.withdrawn hle)
  · have hstep : (k.step (.advance ticks)).1 = _ := congrArg Prod.fst (h.advance_of_lt hlt)
    refine next_of_kept rfl ?_
    rw [hstep]
    exact h.tick hlt

/-- **Every operation on the clock keeps the deadline**, or sets it as it is to be. -/
theorem step (h : OnTime k deadline) {op : Op} (hop : op.isTimed = true) :
    OnTime (k.step op).1 (k.nextDeadline deadline op) := by
  cases op with
  | create bytes => exact next_of_kept rfl (h.frame (k.ring.create bytes).2 k.upgrading)
  | install c =>
    cases hs : k.ring.isScrubbed c with
    | true =>
      -- A refused install changes nothing, the deadline included.
      refine next_of_kept (by rw [restarts, hs]; rfl) ?_
      have hstep : k.step (.install c) = (k, [.warn .scrubbedCredential]) := install_of_isScrubbed hs
      rw [hstep]
      exact h
    | false =>
      have hbooked := h.toBooked.frame (some c) k.surfaces k.policy
      have hstep : (k.step (.install c)).1 = _ := fst_install hs
      rw [nextDeadline, restarts, hs, hstep]
      simp only [Bool.not_false, if_true, freshDeadline_scrub]
      exact (hbooked.onTime_rearm h.minutes).scrub _
  | evict => exact next_of_none rfl h.evict
  | showSurface =>
    have he : ({ k with surfaces := k.surfaces + 1 } : KeyCache).isEligible = false := by
      simp [isEligible]
    -- With a surface open nothing is eligible, so no deadline is left.
    refine next_of_none rfl ((h.toInOrder.step .showSurface).onTime_of_not_eligible ?_ ?_)
    · exact (isEligible_cancelAlarm _).trans he
    · show (KeyCache.cancelAlarm _).policy.timeoutMinutes ≠ 0
      rw [policy_cancelAlarm]
      exact h.minutes
  | hideSurface =>
    exact (h.toBooked.frame k.credential (k.surfaces - 1) k.policy).onTime_rearm h.minutes
  | setPolicy p =>
    exact (h.toBooked.frame k.credential k.surfaces p).onTime_rearm (bne_iff_ne.mp hop)
  | setUpgrading on => exact next_of_kept rfl (h.frame k.ring on)
  | fire id => exact absurd hop Bool.false_ne_true
  | advance ticks => exact h.advance ticks

/-- **So the deadline of a run can be told operation by operation**, from the interval alone and without looking at
any alarm. -/
theorem run (h : OnTime k deadline) {ops : List Op} (hops : ∀ op ∈ ops, op.isTimed = true) :
    OnTime (k.run ops).1 (k.deadlineAfter deadline ops) := by
  induction ops generalizing k deadline with
  | nil => exact h
  | cons op ops ih =>
    obtain ⟨hop, hrest⟩ := List.forall_mem_cons.mp hops
    exact ih (h.step hop) hrest

/-- A new cache has no deadline. -/
theorem start {p : LockPolicy} (clock : Clock) (hp : p.timeoutMinutes ≠ 0) :
    OnTime (.start p clock) none :=
  (InOrder.start p clock).onTime_of_not_eligible (by simp [KeyCache.start, isEligible]) hp

/-! ## Two stretches of time -/

/-- Nobody can tell two stretches of time from one. -/
theorem advance_advance (h : OnTime k deadline) (a b : Nat) :
    ((k.advance a).1.advance b).1 = (k.advance (a + b)).1 ∧
      (k.advance a).2 ++ ((k.advance a).1.advance b).2 = (k.advance (a + b)).2 := by
  rcases le_or_lt deadline (k.clock.now + a) with ⟨t, rfl, hle⟩ | hlt
  · -- The first stretch reaches the deadline, and the second finds nothing to do.
    obtain ⟨held, hheld, ha⟩ := h.advance_of_le hle
    have hle' : t ≤ k.clock.now + (a + b) := by omega
    obtain ⟨held', hheld', hab⟩ := h.advance_of_le hle'
    obtain rfl := Option.some.inj (hheld.symm.trans hheld')
    rw [(h.withdrawn hle).advance_of_lt fun _ hn => (nomatch hn), ha, hab]
    refine ⟨?_, List.append_nil _⟩
    simp only [← Clock.tick_tick]
    rfl
  · rw [h.advance_of_lt hlt]
    simp only [KeyCache.advance, Clock.tick_tick, List.nil_append, and_self]

end OnTime

/-! ## The deadline of a run -/

/-- **The credential is withdrawn at its deadline, not before and not after.** After any run on the clock,
under policies with an interval, nothing is due, and there is a deadline exactly when the cache is eligible,
which is still to come. However much time passes then, the credential is withdrawn and scrubbed if and only
if its deadline is reached, as by an eviction; otherwise nothing changes but the time, and nobody is called.
Two stretches of time do what they do as one. -/
theorem withdrawn_at_deadline (p : LockPolicy) (clock : Clock) (ops : List Op)
    (hp : p.timeoutMinutes ≠ 0) (hops : ∀ op ∈ ops, op.isTimed = true) :
    let k := ((start p clock).run ops).1
    let deadline := (start p clock).deadlineAfter none ops
    k.settle = (k, []) ∧
    deadline.isSome = k.isEligible ∧
    (∀ t, deadline = some t → k.clock.now < t) ∧
    (∀ ticks, (∃ t, deadline = some t ∧ t ≤ k.clock.now + ticks) ↔
      ∃ c, k.credential = some c ∧ (k.advance ticks).1.credential = none ∧
        (k.advance ticks).1.ring.isScrubbed c = true) ∧
    (∀ ticks t, deadline = some t → t ≤ k.clock.now + ticks →
      ∃ clock, clock.now = k.clock.now + ticks ∧
        k.advance ticks = ({ k.evict.1 with clock }, k.evict.2)) ∧
    (∀ ticks, (∀ t, deadline = some t → k.clock.now + ticks < t) →
      k.advance ticks = ({ k with clock := k.clock.tick ticks }, [])) ∧
    (∀ a b, ((k.advance a).1.advance b).1 = (k.advance (a + b)).1 ∧
      (k.advance a).2 ++ ((k.advance a).1.advance b).2 = (k.advance (a + b)).2) := by
  intro k deadline
  have h : OnTime k deadline := (OnTime.start clock hp).run hops
  refine ⟨?_, h.isSome_eq, h.pending, fun ticks => ⟨?_, ?_⟩, fun ticks t ht hle => ?_,
    fun ticks hlt => h.advance_of_lt hlt, h.advance_advance⟩
  · have hlt : ∀ t, deadline = some t → k.clock.now + 0 < t := h.pending
    exact h.advance_of_lt hlt
  · rintro ⟨t, ht, hle⟩
    obtain ⟨held, -, hadvance⟩ := (ht ▸ h).advance_of_le hle
    have heligible : k.isEligible = true := by rw [← h.isSome_eq, ht]; rfl
    obtain ⟨c, hc⟩ := Option.isSome_iff_exists.mp ((isEligible_iff k).mp heligible).2.1
    refine ⟨c, hc, ?_, ?_⟩
    · rw [hadvance, credential_evict]
    · rw [hadvance, evict_eq, hc]
      show (k.ring.scrub c).isScrubbed c = true
      rw [Keyring.isScrubbed_scrub]
      simp
  · rintro ⟨c, hc, hwithdrawn, -⟩
    -- Were the deadline still ahead, the credential would be the one from before.
    refine (le_or_lt deadline (k.clock.now + ticks)).resolve_right fun hlt => ?_
    rw [h.advance_of_lt hlt] at hwithdrawn
    exact nomatch hc.symm.trans hwithdrawn
  · obtain ⟨held, -, hadvance⟩ := (ht ▸ h).advance_of_le hle
    exact ⟨(k.clock.tick ticks).take held.id, rfl, hadvance⟩

/-- Installed again after four of five minutes, the credential is there until the ninth is over. -/
theorem withdrawn_at_deadline_reinstalled :
    let ops := [.create [1], .install ⟨0⟩, .advance 240, .install ⟨0⟩]
    let k := ((start (.after 5) {}).run ops).1
    (LockPolicy.after 5).timeoutMinutes ≠ 0 ∧ (∀ op ∈ ops, op.isTimed = true) ∧
      (start (.after 5) {}).deadlineAfter none ops = some 540 ∧
      k.advance 299 = ({ k with clock := k.clock.tick 299 }, []) ∧
      ∃ clock, clock.now = k.clock.now + 300 ∧
        k.advance 300 = ({ k.evict.1 with clock }, k.evict.2) := by
  have h := withdrawn_at_deadline (.after 5) {}
    [.create [1], .install ⟨0⟩, .advance 240, .install ⟨0⟩] (by decide) (by decide)
  refine ⟨by decide, by decide, by decide, ?_, ?_⟩
  · exact h.2.2.2.2.2.1 299 (by decide)
  · exact h.2.2.2.2.1 300 540 (by decide) (by decide)

end TextVault.KeyCache
