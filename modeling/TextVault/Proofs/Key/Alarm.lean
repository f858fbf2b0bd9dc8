import TextVault.Proofs.Alarm.Clock
import TextVault.Proofs.Key.Run

/-
  The one alarm of the key cache.

  Problem: seven kinds of operation touch the surfaces, the credential, the policy or the alarm, and old
  alarms may still go off, so it takes an invariant to know which alarms are live and what they wait for.

  Spec: `Booked` says that the books on the alarms are right: callbacks bring the numbers given out so
  far, each once, and the alarm held is the only live one. `InOrder` adds that there is one exactly when
  the cache is eligible, with the interval of the policy. Giving up the alarm keeps the books
  (`Booked.cancelAlarm`), starting the interval anew puts them in order (`Booked.rearm`), and so every
  operation keeps them in order (`InOrder.step`).

  The crux is the callback of an alarm that is late: its number was given out once, so it is not the
  number held now (`Booked.fire_of_ne`).
-/
namespace TextVault.KeyCache

/-! ## What giving up and starting anew leave alone -/

theorem cancelAlarm_of_none {k : KeyCache} (h : k.alarm = none) : k.cancelAlarm = k := by
  rw [cancelAlarm, h]

/-- Giving up the alarm cancels it on the clock, so that it does not go off by itself. -/
theorem cancelAlarm_of_some {k : KeyCache} {held : HeldAlarm} (h : k.alarm = some held) :
    k.cancelAlarm = { k with alarm := none, clock := k.clock.cancel held.id } := by
  rw [cancelAlarm, h]

/-- Giving up the alarm touches the alarm and the clock only. -/
theorem cancelAlarm_eq (k : KeyCache) :
    k.cancelAlarm = { k with alarm := none, clock := k.cancelAlarm.clock } := by
  cases h : k.alarm with
  | none => rw [cancelAlarm_of_none h, ← h]
  | some held => rw [cancelAlarm_of_some h]

/-- No alarm is held then, and all that is not about the alarm stays as it was. -/
@[simp] theorem alarm_cancelAlarm (k : KeyCache) : k.cancelAlarm.alarm = none := by
  rw [cancelAlarm_eq]

@[simp] theorem ring_cancelAlarm (k : KeyCache) : k.cancelAlarm.ring = k.ring := by
  rw [cancelAlarm_eq]

@[simp] theorem credential_cancelAlarm (k : KeyCache) :
    k.cancelAlarm.credential = k.credential := by
  rw [cancelAlarm_eq]

@[simp] theorem surfaces_cancelAlarm (k : KeyCache) : k.cancelAlarm.surfaces = k.surfaces := by
  rw [cancelAlarm_eq]

@[simp] theorem policy_cancelAlarm (k : KeyCache) : k.cancelAlarm.policy = k.policy := by
  rw [cancelAlarm_eq]

@[simp] theorem isEligible_cancelAlarm (k : KeyCache) :
    k.cancelAlarm.isEligible = k.isEligible := by
  rw [cancelAlarm_eq]
  rfl

theorem alarm_eq_none {k : KeyCache} (h : k.isArmed = false) : k.alarm = none :=
  Option.isNone_iff_eq_none.mp (Option.isSome_eq_false_iff.mp h)

/-- Where an alarm is wanted, the old one gives way to a new one even if it would have done. -/
theorem rearm_of_eligible {k : KeyCache} (h : k.isEligible = true) :
    k.rearm = k.cancelAlarm.armAlarm := by
  rw [rearm, isEligible_cancelAlarm, if_pos h]

/-- Where none is wanted, the old one is only given up. -/
theorem rearm_of_not_eligible {k : KeyCache} (h : k.isEligible = false) :
    k.rearm = k.cancelAlarm := by
  rw [rearm, isEligible_cancelAlarm, h]
  rfl

/-- Starting the interval anew touches the alarm and the clock only. It is a choice between two operations that do no
more than that. -/
@[simp] theorem ring_rearm (k : KeyCache) : k.rearm.ring = k.ring := by
  rw [rearm]
  split
  · exact ring_cancelAlarm k
  · exact ring_cancelAlarm k

@[simp] theorem credential_rearm (k : KeyCache) : k.rearm.credential = k.credential := by
  rw [rearm]
  split
  · exact credential_cancelAlarm k
  · exact credential_cancelAlarm k

@[simp] theorem surfaces_rearm (k : KeyCache) : k.rearm.surfaces = k.surfaces := by
  rw [rearm]
  split
  · exact surfaces_cancelAlarm k
  · exact surfaces_cancelAlarm k

@[simp] theorem policy_rearm (k : KeyCache) : k.rearm.policy = k.policy := by
  rw [rearm]
  split
  · exact policy_cancelAlarm k
  · exact policy_cancelAlarm k

@[simp] theorem isEligible_rearm (k : KeyCache) : k.rearm.isEligible = k.isEligible := by
  rw [rearm]
  split
  · exact isEligible_cancelAlarm k
  · exact isEligible_cancelAlarm k

/-- A cache waits for an alarm only if no surface is visible, something is installed, and the timeout
is on. -/
theorem isEligible_iff (k : KeyCache) :
    k.isEligible = true ↔
      k.surfaces = 0 ∧ k.credential.isSome = true ∧ k.policy.timeoutEnabled = true := by
  simp [isEligible, and_assoc]

/-! ## The books -/

/-- The books on the alarms are right. -/
structure Booked (k : KeyCache) : Prop where
  /-- The callbacks bring the numbers given out so far, each once and in order. -/
  callbacks : k.callbacks = List.range k.nextNumber
  nextNumber : k.nextNumber = k.clock.alarms.length
  number : ∀ held, k.alarm = some held → held.number = held.id
  /-- No alarm is live but the one held. -/
  live : k.clock.live = (k.alarm.map (·.id)).toList

/-- The books are right, and what they say is what the cache wants. -/
structure InOrder (k : KeyCache) : Prop extends Booked k where
  armed : k.isArmed = k.isEligible
  delay : ∀ held a, k.alarm = some held → k.clock.alarms[held.id]? = some a →
    a.delay = k.clock.ticks k.policy.interval

namespace Booked

variable {k : KeyCache}

/-- A new cache has no alarms and has given out no numbers. -/
theorem start (p : LockPolicy) (clock : Clock) : Booked (.start p clock) where
  callbacks := rfl
  nextNumber := rfl
  number := fun _ h => nomatch h
  live := rfl

/-- Whatever makes a cache eligible is no concern of the books. -/
theorem frame (h : Booked k) (credential : Option Credential) (surfaces : Nat) (policy : LockPolicy) :
    Booked { k with credential, surfaces, policy } :=
  ⟨h.callbacks, h.nextNumber, h.number, h.live⟩

/-- **Giving up the alarm keeps the books.** It was the only live one, so none is live afterwards. -/
theorem cancelAlarm (h : Booked k) : Booked k.cancelAlarm := by
  cases ha : k.alarm with
  | none =>
    rw [cancelAlarm_of_none ha]
    exact h
  | some held =>
    rw [cancelAlarm_of_some ha]
    refine ⟨h.callbacks, ?_, fun _ hn => (nomatch hn), ?_⟩
    · exact h.nextNumber.trans (Clock.length_cancel k.clock held.id).symm
    · -- The alarm held was the only live one.
      show (k.clock.cancel held.id).live = []
      rw [Clock.live_cancel, h.live, ha]
      simp

/-- **Arming one keeps them too, if none is held.** The new alarm has the next place on the clock and the next number,
which are the same. -/
theorem armAlarm (h : Booked k) (hnone : k.alarm = none) : Booked k.armAlarm where
  callbacks := by
    show k.callbacks ++ [k.nextNumber] = List.range (k.nextNumber + 1)
    rw [List.range_succ, h.callbacks]
  nextNumber := by
    show k.nextNumber + 1 = (k.clock.alarms ++ [_]).length
    rw [List.length_append, h.nextNumber]
    rfl
  number := by
    rintro held hheld
    obtain rfl := Option.some.inj hheld
    exact h.nextNumber
  live := by
    show (k.clock.arm _).2.live = [k.clock.alarms.length]
    rw [Clock.live_arm, h.live, hnone]
    rfl

/-- Without an alarm, and without wanting one, the books are in order. -/
theorem inOrder_of_none (h : Booked k) (hnone : k.alarm = none) (he : k.isEligible = false) :
    InOrder k where
  toBooked := h
  armed := by rw [he, isArmed, hnone]; rfl
  delay := by
    intro held a hheld
    rw [hnone] at hheld
    nomatch hheld

/-- Where no alarm is wanted, giving it up is all there is to do. -/
theorem inOrder_cancelAlarm (h : Booked k) (he : k.isEligible = false) : InOrder k.cancelAlarm :=
  h.cancelAlarm.inOrder_of_none (alarm_cancelAlarm k) (by rw [isEligible_cancelAlarm, he])

/-- **Starting anew puts the books in order**, whatever has been changed before. -/
theorem rearm (h : Booked k) : InOrder k.rearm := by
  cases he : k.isEligible with
  | false =>
    rw [rearm_of_not_eligible he]
    exact h.inOrder_cancelAlarm he
  | true =>
    rw [rearm_of_eligible he]
    refine ⟨h.cancelAlarm.armAlarm (alarm_cancelAlarm k), ?_, ?_⟩
    · show true = k.cancelAlarm.isEligible
      rw [isEligible_cancelAlarm, he]
    · intro held a hheld ha
      obtain rfl := Option.some.inj hheld
      -- The alarm held is the one just armed, with the delay of the policy in force.
      have harm := Clock.getElem?_arm k.cancelAlarm.clock
        (k.cancelAlarm.clock.ticks k.cancelAlarm.policy.interval) k.cancelAlarm.clock.alarms.length
      rw [if_pos rfl] at harm
      obtain rfl := Option.some.inj (harm.symm.trans ha)
      rfl

/-- An alarm that was ever armed brings its own place as its number. -/
theorem callback_of_isUntaken (h : Booked k) {id : AlarmId} (hu : k.clock.isUntaken id = true) :
    k.callbacks[id]? = some id := by
  have hlt : id < k.clock.alarms.length := by
    rw [Clock.isUntaken] at hu
    split at hu
    · next ha => exact (List.getElem?_eq_some_iff.mp ha).1
    · exact absurd hu Bool.false_ne_true
  rw [h.callbacks, List.getElem?_range (by rw [h.nextNumber]; exact hlt)]

/-- **A late alarm is ignored.** Its number is not the number held now, so all its callback does is to
have been run. -/
theorem fire_of_ne (h : Booked k) {id : AlarmId} (hne : k.alarm.map (·.id) ≠ some id)
    (hu : k.clock.isUntaken id = true) :
    k.fire id = ({ k with clock := k.clock.take id }, []) := by
  -- Running it leaves the callbacks as they are, so the number is still its own.
  have hcallback : ({ k with clock := k.clock.take id } : KeyCache).callbacks[id]? = some id :=
    h.callback_of_isUntaken hu
  rw [fire, if_pos hu]
  simp only [hcallback]
  rw [onAlarm]
  cases ha : k.alarm with
  | none => simp
  | some held =>
    have hnumber : held.number ≠ id := by
      intro he
      apply hne
      rw [ha, ← he, h.number held ha]
      rfl
    simp [hnumber]

end Booked

/-! ## Every operation keeps the books in order -/

/-- What an eviction makes of the cache, and whom it tells. -/
theorem evict_eq (k : KeyCache) :
    k.evict =
      ({ k with
          ring := (k.scrub k.credential).ring
          credential := none
          alarm := none
          clock := k.cancelAlarm.clock },
        [.call (.lower none), .publish .credentialCleared, .call (.refresh none)]) := by
  rw [evict, finishEviction, withdraw, cancelAlarm_eq]
  cases k.credential with
  | none => rfl
  | some c => rfl

@[simp] theorem credential_evict (k : KeyCache) : k.evict.1.credential = none := by rw [evict_eq]

@[simp] theorem alarm_evict (k : KeyCache) : k.evict.1.alarm = none := by rw [evict_eq]

/-- Nothing is installed after an eviction, so no alarm is wanted. -/
theorem isEligible_evict (k : KeyCache) : k.evict.1.isEligible = false := by simp [isEligible]

/-- So an eviction puts the books in order, whatever has been changed before. -/
theorem Booked.evict {k : KeyCache} (h : Booked k) : InOrder k.evict.1 := by
  have hc := h.cancelAlarm
  have he := isEligible_evict k
  rw [cancelAlarm_eq] at hc
  rw [evict_eq] at he ⊢
  exact Booked.inOrder_of_none ⟨hc.callbacks, hc.nextNumber, hc.number, hc.live⟩ rfl he

namespace InOrder

variable {k : KeyCache}

/-- A new cache is in order: it wants no alarm and has none. -/
theorem start (p : LockPolicy) (clock : Clock) : InOrder (.start p clock) :=
  (Booked.start p clock).inOrder_of_none rfl (by simp [KeyCache.start, isEligible])

/-- The books take no notice of secrets and upgrades. -/
theorem frame (h : InOrder k) (ring : Keyring) (upgrading : Bool) :
    InOrder { k with ring, upgrading } :=
  ⟨⟨h.callbacks, h.nextNumber, h.number, h.live⟩, h.armed, h.delay⟩

/-- Scrubbing touches the secrets only. -/
theorem scrub (h : InOrder k) (removed : Option Credential) : InOrder (k.scrub removed) := by
  cases removed with
  | none => exact h
  | some c => exact h.frame (k.ring.scrub c) k.upgrading

/-- While nothing is run the books do not ask for the time. -/
theorem tick (h : InOrder k) (ticks : Nat) : InOrder { k with clock := k.clock.tick ticks } :=
  ⟨⟨h.callbacks, h.nextNumber, h.number, h.live⟩, h.armed, h.delay⟩

/-- The alarm held is on the clock, and nobody has cancelled or run it. -/
theorem exists_alarm (h : InOrder k) {held : HeldAlarm} (ha : k.alarm = some held) :
    ∃ a, k.clock.alarms[held.id]? = some a ∧ a.isLive = true ∧
      a.delay = k.clock.ticks k.policy.interval := by
  have hlive : held.id ∈ k.clock.live := by
    rw [h.live, ha]
    exact List.mem_singleton_self _
  obtain ⟨a, hget, hl⟩ := Clock.mem_live.mp hlive
  exact ⟨a, hget, hl, h.delay held a ha hget⟩

/-- Nobody has run the alarm that is held, since it is live. -/
theorem isUntaken (h : InOrder k) {held : HeldAlarm} (ha : k.alarm = some held) :
    k.clock.isUntaken held.id = true :=
  Clock.isUntaken_of_mem_live (by rw [h.live, ha]; exact List.mem_singleton_self _)

/-- **The alarm held evicts.** Its callback does what an eviction does, but for the alarm itself, which
has been run in place of being cancelled. -/
theorem fire_of_eq (h : InOrder k) {held : HeldAlarm} (ha : k.alarm = some held) :
    k.fire held.id = ({ k.evict.1 with clock := k.clock.take held.id }, k.evict.2) := by
  have hcallback : ({ k with clock := k.clock.take held.id } : KeyCache).callbacks[held.id]? =
      some held.id := h.callback_of_isUntaken (h.isUntaken ha)
  -- Nothing else would have kept the alarm, so the cache is still eligible when it goes off.
  have heligible : k.isEligible = true := by rw [← h.armed, isArmed, ha]; rfl
  rw [fire, if_pos (h.isUntaken ha)]
  simp only [hcallback]
  rw [onAlarm]
  simp only [ha, h.number held ha, if_true]
  have hstill : ({ k with clock := k.clock.take held.id, alarm := none } : KeyCache).isEligible =
      true := heligible
  rw [hstill, if_pos rfl, evict_eq, evict_eq]
  cases k.credential with
  | none => rfl
  | some c => rfl

/-- Running an alarm that is not held leaves the books in order. -/
theorem take (h : InOrder k) {id : AlarmId} (hne : k.alarm.map (·.id) ≠ some id) :
    InOrder { k with clock := k.clock.take id } := by
  have hdead : id ∉ k.clock.live := by
    rw [h.live, Option.mem_toList]
    exact hne
  refine ⟨⟨h.callbacks, ?_, h.number, ?_⟩, h.armed, ?_⟩
  · exact h.nextNumber.trans (Clock.length_take k.clock id).symm
  · exact (Clock.live_take_of_not_mem hdead).trans h.live
  · -- The alarm taken is another one than that held, whose delay therefore stays.
    intro held a hheld ha
    have hother : id ≠ held.id := by
      rintro rfl
      exact hne (by rw [hheld]; rfl)
    have hget : (k.clock.take id).alarms[held.id]? = k.clock.alarms[held.id]? := by
      rw [Clock.getElem?_take, if_neg hother]
    exact h.delay held a hheld (hget.symm.trans ha)

/-- **A callback keeps the books in order**, whichever alarm it is of. The alarm held evicts and is used up; a late
one changes nothing but that it has been run. -/
theorem fire (h : InOrder k) (id : AlarmId) : InOrder (k.fire id).1 := by
  cases hu : k.clock.isUntaken id with
  | false =>
    rw [KeyCache.fire, hu]
    exact h
  | true =>
    -- The alarm held evicts; of any other, all that changes is that it has been run.
    by_cases hheld : k.alarm.map (·.id) = some id
    · obtain ⟨held, ha, rfl⟩ := Option.map_eq_some_iff.mp hheld
      have he := isEligible_evict k
      rw [h.fire_of_eq ha]
      rw [evict_eq] at he ⊢
      refine Booked.inOrder_of_none ⟨h.callbacks, ?_, fun _ hn => (nomatch hn), ?_⟩ rfl he
      · exact h.nextNumber.trans (Clock.length_take k.clock held.id).symm
      · show (k.clock.take held.id).live = []
        rw [Clock.live_take, h.live, ha]
        simp
    · rw [h.fire_of_ne hheld hu]
      exact h.take hheld

/-- **Every operation keeps the books in order.** -/
theorem step (h : InOrder k) (op : Op) : InOrder (k.step op).1 := by
  cases op with
  | create bytes => exact h.frame (k.ring.create bytes).2 k.upgrading
  | install c =>
    show InOrder (k.install c).1
    cases hs : k.ring.isScrubbed c with
    | true =>
      rw [install_of_isScrubbed hs]
      exact h
    | false =>
      rw [fst_install hs]
      exact (h.toBooked.frame (some c) k.surfaces k.policy).rearm.scrub _
  | evict => exact h.evict
  | showSurface =>
    have hbooked := h.toBooked.frame k.credential (k.surfaces + 1) k.policy
    exact hbooked.inOrder_cancelAlarm (by simp [isEligible])
  | hideSurface => exact (h.toBooked.frame k.credential (k.surfaces - 1) k.policy).rearm
  | setPolicy p => exact (h.toBooked.frame k.credential k.surfaces p).rearm
  | setUpgrading on => exact h.frame k.ring on
  | fire id => exact h.fire id
  | advance ticks =>
    show InOrder (KeyCache.advance k ticks).1
    exact fireAll_invariant (fun _ id h => h.fire id) _ _ (h.tick ticks)

/-- So they are in order after every run of a new cache. -/
theorem run (p : LockPolicy) (clock : Clock) (ops : List Op) :
    InOrder ((KeyCache.start p clock).run ops).1 :=
  run_invariant (fun _ op h => h.step op) ops _ (start p clock)

end InOrder

/-! ## The live alarm of a run -/

/-- **One live alarm, and only when it is wanted.** After any run a cache is armed exactly when no surface
is visible, a credential is installed and the timeout is on. Then the alarm it holds is the only live one
of all that were ever armed, and waits for the interval of the policy in force; otherwise none is live. -/
theorem live_alarm_of_run (p : LockPolicy) (clock : Clock) (ops : List Op) :
    let k := ((start p clock).run ops).1
    (k.isArmed = true ↔
      k.surfaces = 0 ∧ k.credential.isSome = true ∧ k.policy.timeoutEnabled = true) ∧
    (k.isArmed = true → ∃ held a, k.alarm = some held ∧ k.clock.live = [held.id] ∧
      k.clock.alarms[held.id]? = some a ∧ a.delay = k.clock.ticks k.policy.interval) ∧
    (k.isArmed = false → k.clock.live = []) := by
  intro k
  have h : InOrder k := .run p clock ops
  refine ⟨?_, ?_, ?_⟩
  · rw [h.armed]
    exact isEligible_iff k
  · intro harmed
    obtain ⟨held, ha⟩ := Option.isSome_iff_exists.mp harmed
    obtain ⟨a, hget, -, hdelay⟩ := h.exists_alarm ha
    exact ⟨held, a, ha, by rw [h.live, ha]; rfl, hget, hdelay⟩
  · intro harmed
    rw [h.live, alarm_eq_none harmed]
    rfl

/-- A shorter timeout starts the interval anew: the alarm of five minutes is given up, and the one that takes
its place waits for two. -/
theorem live_alarm_of_run_policy :
    let k := ((start (.after 5) {}).run [.create [1], .install ⟨0⟩, .setPolicy (.after 2)]).1
    k.isArmed = true ∧ k.clock.alarms.length = 2 ∧
    ∃ held a, k.alarm = some held ∧ k.clock.live = [held.id] ∧
      k.clock.alarms[held.id]? = some a ∧ a.delay = k.clock.ticks k.policy.interval ∧
      k.clock.ticks k.policy.interval = 120 := by
  intro k
  have harmed : k.isArmed = true := by decide
  obtain ⟨-, hlive, -⟩ := live_alarm_of_run (.after 5) {} [.create [1], .install ⟨0⟩, .setPolicy (.after 2)]
  obtain ⟨held, a, ha, honly, hget, hdelay⟩ := hlive harmed
  exact ⟨harmed, by decide, held, a, ha, honly, hget, hdelay, by decide⟩

end TextVault.KeyCache
