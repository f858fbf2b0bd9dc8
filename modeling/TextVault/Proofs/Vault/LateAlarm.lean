import TextVault.Proofs.Key.Alarm
import TextVault.Proofs.Vault.SessionKeys

/-
  Alarms that go off late, or after the vault has been dropped.

  Problem: an alarm may go off after any number of changes, when the cache waits for another one, for none,
  or is not there any more. Only the one it waits for may do anything, and that is to evict.

  Spec: in every session the callback of any other alarm marks itself as run and leaves all else as it is;
  the callback of the one held has the effect of an eviction, on the cache, the bus and the acts alike.
-/
namespace TextVault.Session

/-- The same session with another clock. -/
def withClock (s : Session) (clock : Clock) : Session :=
  { s with vault := { s.vault with keys := { s.vault.keys with clock } } }

/-- What an operation of the key cache does in a session: the cache steps, its events are published, and the host sees
its calls. -/
theorem onKeys_eq (s : Session) (op : KeyCache.Op) :
    s.onKeys op =
      ({ s with
          vault := ({ s.vault with keys := (s.vault.keys.step op).1 }).publishAll
            (s.vault.keys.step op).2 },
        .done, (s.vault.keys.step op).2) := rfl

/-- Without a vault, an alarm that goes off does nothing. -/
theorem fire_of_dropped {s : Session} {id : AlarmId} (hdropped : s.isOpen = false)
    (hu : s.vault.keys.clock.isUntaken id = true) :
    s.fire id = (s.withClock (s.vault.keys.clock.take id), .truth true, []) := by
  rw [fire, hdropped, hu]
  simp only [Bool.false_eq_true, if_false, if_true, withClock, hdropped]

/-- In a vault that has not been dropped, a callback is run as an operation of the key cache, unless it has been run
before. -/
theorem fire_of_isOpen {s : Session} {id : AlarmId} (hopen : s.isOpen = true)
    (hu : s.vault.keys.clock.isUntaken id = true) :
    s.fire id = ((s.onKeys (.fire id)).1, .truth true, (s.onKeys (.fire id)).2.2) := by
  rw [fire, hopen, hu]
  rfl

/-- A late alarm does nothing to a vault. -/
theorem fire_of_ne {s : Session} {id : AlarmId} (hbooked : s.vault.keys.Booked)
    (hopen : s.isOpen = true) (hne : s.vault.keys.alarm.map (·.id) ≠ some id)
    (hu : s.vault.keys.clock.isUntaken id = true) :
    s.fire id = (s.withClock (s.vault.keys.clock.take id), .truth true, []) := by
  have hstep : s.vault.keys.step (.fire id) =
      ({ s.vault.keys with clock := s.vault.keys.clock.take id }, []) := hbooked.fire_of_ne hne hu
  rw [fire_of_isOpen hopen hu, onKeys_eq, hstep]
  rfl

/-- The alarm held does to a vault what an eviction does. -/
theorem fire_of_eq {s : Session} {held : HeldAlarm} (horder : s.vault.keys.InOrder)
    (hopen : s.isOpen = true) (ha : s.vault.keys.alarm = some held) :
    s.fire held.id =
      ((s.onKeys .evict).1.withClock (s.vault.keys.clock.take held.id), .truth true,
        (s.onKeys .evict).2.2) := by
  have hstep : s.vault.keys.step (.fire held.id) =
      ({ s.vault.keys.evict.1 with clock := s.vault.keys.clock.take held.id },
        s.vault.keys.evict.2) := horder.fire_of_eq ha
  rw [fire_of_isOpen hopen (horder.isUntaken ha), onKeys_eq, hstep]
  rfl

/-- **Only the alarm held does anything.** In every session, of an alarm whose callback has not been run:
if the cache does not hold it, or the vault has been dropped, its callback marks itself as run and changes
nothing else, the live alarm included. If the cache holds it, its callback does what an eviction does, but
that the alarm has been run and not cancelled. -/
theorem fire_of_run (host : Host) (v : Vault) (p : LockPolicy) (clock : Clock) (ops : List Op)
    (id : AlarmId) :
    let s := ((ofVault host { v with keys := .start p clock }).run ops).1
    let keys := s.vault.keys
    keys.clock.isUntaken id = true →
      (keys.alarm.map (·.id) ≠ some id ∨ s.isOpen = false →
        s.fire id = (s.withClock (keys.clock.take id), .truth true, [])) ∧
      (keys.alarm.map (·.id) ≠ some id → s.isOpen = true →
        (keys.clock.take id).live = keys.clock.live) ∧
      (keys.alarm.map (·.id) = some id → s.isOpen = true →
        (s.onKeys .evict).1.vault.keys.clock = keys.clock.cancel id ∧
        s.fire id = ((s.onKeys .evict).1.withClock (keys.clock.take id), .truth true,
          (s.onKeys .evict).2.2)) := by
  intro s keys hu
  -- The key cache of a vault that is still there comes from a run of its own.
  have horder : s.isOpen = true → keys.InOrder := by
    intro hopen
    obtain ⟨keyOps, hkeys⟩ := exists_run_keys hopen
    show s.vault.keys.InOrder
    rw [hkeys]
    exact .run p clock keyOps
  refine ⟨?_, ?_, ?_⟩
  · intro hne
    cases hopen : s.isOpen with
    | false => exact fire_of_dropped hopen hu
    | true =>
      have hne' : keys.alarm.map (·.id) ≠ some id := hne.resolve_right (by rw [hopen]; simp)
      exact fire_of_ne (horder hopen).toBooked hopen hne' hu
  · intro hne hopen
    refine Clock.live_take_of_not_mem ?_
    rw [(horder hopen).live, Option.mem_toList]
    exact hne
  · intro heq hopen
    obtain ⟨held, ha, rfl⟩ := Option.map_eq_some_iff.mp heq
    refine ⟨?_, fire_of_eq (horder hopen) hopen ha⟩
    show keys.evict.1.clock = _
    rw [KeyCache.evict_eq, KeyCache.cancelAlarm_of_some ha]

/-- An alarm that goes off on a session with a credential and a timeout evicts. -/
theorem fire_of_run_unlocked :
    let s := ((ofVault {} { keys := .start (.after 5) {} }).run
      [.keys (.create [1]), .keys (.install ⟨0⟩)]).1
    s.vault.keys.clock.isUntaken 0 = true ∧ s.vault.keys.alarm.map (·.id) = some 0 ∧
      s.isOpen = true ∧
      s.fire 0 = ((s.onKeys .evict).1.withClock (s.vault.keys.clock.take 0), .truth true,
        (s.onKeys .evict).2.2) := by
  refine ⟨by decide, by decide, rfl, ?_⟩
  exact ((fire_of_run {} {} (.after 5) {} [.keys (.create [1]), .keys (.install ⟨0⟩)] 0
    (by decide)).2.2 (by decide) rfl).2

end TextVault.Session
