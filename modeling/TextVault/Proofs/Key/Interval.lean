import TextVault.Proofs.Key.Scrubbing

/-
  No alarm goes off in the step that arms it.

  Problem: the settings refuse an interval of zero, but the key cache takes any policy, so whether its alarms
  have a delay hangs on whoever sets the policy.

  Program: `Clock.delays` are the delays of all alarms ever armed. An operation has an interval if it sets no
  policy without one (`Op.hasInterval`).

  Spec: `Patient` says that the policy has an interval and that no alarm was ever armed without a delay.
  Arming keeps it (`Patient.armAlarm`), since the delay is the interval, and so does every operation that
  has an interval (`Patient.step`).
-/
namespace TextVault

namespace Clock

/-- The delays of all alarms ever armed, in arming order. -/
def delays (c : Clock) : List Nat := c.alarms.map (·.delay)

/-- Arming adds the delay of the new alarm to those of the others. -/
theorem delays_arm (c : Clock) (delay : Nat) : (c.arm delay).2.delays = c.delays ++ [delay] := by
  rw [delays, arm, List.map_append]
  rfl

/-- Whatever is done to an alarm after it was armed leaves its delay alone. -/
theorem delays_modify {c c' : Clock} {id : AlarmId} {f : Alarm → Alarm}
    (h : c'.alarms = c.alarms.modify id f) (hf : ∀ a, (f a).delay = a.delay) :
    c'.delays = c.delays := by
  rw [delays, delays, h]
  refine List.ext_getElem? fun i => ?_
  rw [List.getElem?_map, List.getElem?_map, List.getElem?_modify]
  cases c.alarms[i]? with
  | none => rfl
  | some a =>
    by_cases hi : id = i
    · simp [hi, hf]
    · simp [hi]

theorem delays_cancel (c : Clock) (id : AlarmId) : (c.cancel id).delays = c.delays :=
  delays_modify rfl fun _ => rfl

theorem delays_take (c : Clock) (id : AlarmId) : (c.take id).delays = c.delays :=
  delays_modify rfl fun _ => rfl

end Clock

namespace KeyCache

/-- It sets no policy without an interval. -/
def Op.hasInterval : Op → Prop
  | setPolicy p => p.timeoutMinutes ≠ 0
  | _ => True

/-- There is an interval, and every alarm ever armed has a delay. -/
structure Patient (k : KeyCache) : Prop where
  minutes : k.policy.timeoutMinutes ≠ 0
  delays : ∀ delay ∈ k.clock.delays, 0 < delay

namespace Patient

variable {k : KeyCache}

/-- A new cache with an interval is patient: no alarm was ever armed. -/
theorem start {p : LockPolicy} (h : p.timeoutMinutes ≠ 0) (clock : Clock) : Patient (.start p clock) :=
  ⟨h, fun _ hn => (nomatch hn)⟩

/-- Only the policy and the delays count. -/
theorem congr {k' : KeyCache} (h : Patient k) (hpolicy : k'.policy = k.policy)
    (hdelays : k'.clock.delays = k.clock.delays) : Patient k' :=
  ⟨by rw [hpolicy]; exact h.minutes, by rw [hdelays]; exact h.delays⟩

/-- Giving up an alarm leaves the delays of all of them alone. -/
theorem cancelAlarm (h : Patient k) : Patient k.cancelAlarm := by
  refine h.congr (policy_cancelAlarm k) ?_
  cases ha : k.alarm with
  | none => rw [cancelAlarm_of_none ha]
  | some held =>
    rw [cancelAlarm_of_some ha]
    exact k.clock.delays_cancel held.id

/-- **A new alarm waits for the interval of the policy.** -/
theorem armAlarm (h : Patient k) : Patient k.armAlarm := by
  refine ⟨h.minutes, fun delay hdelay => ?_⟩
  have harm : k.armAlarm.clock.delays = k.clock.delays ++ [k.clock.ticks k.policy.interval] :=
    k.clock.delays_arm _
  rw [harm] at hdelay
  rcases List.mem_append.mp hdelay with hold | hnew
  · exact h.delays delay hold
  · rw [List.mem_singleton.mp hnew]
    exact Nat.mul_pos (LockPolicy.interval_pos h.minutes) k.clock.second_pos

/-- A new alarm waits for the interval of the policy, and there is one. -/
theorem rearm (h : Patient k) : Patient k.rearm := by
  rw [KeyCache.rearm]
  split
  · exact h.cancelAlarm.armAlarm
  · exact h.cancelAlarm

theorem scrub (h : Patient k) (removed : Option Credential) : Patient (k.scrub removed) := by
  cases removed with
  | none => exact h
  | some c => exact h.congr rfl rfl

/-- An eviction only gives up. -/
theorem evict (h : Patient k) : Patient k.evict.1 := by
  rw [evict_eq]
  have hc := h.cancelAlarm
  exact ⟨h.minutes, hc.delays⟩

/-- So a callback at most gives up. -/
theorem onAlarm (h : Patient k) (number : Nat) : Patient (k.onAlarm number).1 := by
  have hwaiting : Patient { k with alarm := none } := h.congr rfl rfl
  rcases fst_onAlarm k number with hkept | hkept | hevicted
  · rw [hkept]
    exact h
  · rw [hkept]
    exact hwaiting
  · rw [hevicted]
    exact hwaiting.evict

theorem fire (h : Patient k) (id : AlarmId) : Patient (k.fire id).1 := by
  have htaken : Patient { k with clock := k.clock.take id } := h.congr rfl (k.clock.delays_take id)
  rw [KeyCache.fire]
  split
  · dsimp only
    split
    · exact htaken.onAlarm _
    · exact htaken
  · exact h

/-- An install starts the interval anew, with the policy as it is. -/
theorem install (h : Patient k) (c : Credential) : Patient (k.install c).1 := by
  cases hc : k.ring.isScrubbed c with
  | true =>
    rw [install_of_isScrubbed hc]
    exact h
  | false =>
    rw [fst_install hc]
    have hnew : Patient { k with credential := some c } := h.congr rfl rfl
    exact hnew.rearm.scrub _

/-- **Every operation that has an interval keeps it.** -/
theorem step (h : Patient k) {op : Op} (hop : op.hasInterval) : Patient (k.step op).1 := by
  cases op with
  | create bytes => exact h.congr rfl rfl
  | install c => exact h.install c
  | evict => exact h.evict
  | showSurface =>
    have hshown : Patient { k with surfaces := k.surfaces + 1 } := h.congr rfl rfl
    exact hshown.cancelAlarm
  | hideSurface =>
    have hhidden : Patient { k with surfaces := k.surfaces - 1 } := h.congr rfl rfl
    exact hhidden.rearm
  | setPolicy p =>
    have hset : Patient { k with policy := p } := ⟨hop, h.delays⟩
    exact hset.rearm
  | setUpgrading on => exact h.congr rfl rfl
  | fire id => exact h.fire id
  | advance ticks =>
    have hticked : Patient { k with clock := k.clock.tick ticks } := h.congr rfl rfl
    exact fireAll_invariant (fun _ id h => h.fire id) _ _ hticked

end Patient

end KeyCache

end TextVault
