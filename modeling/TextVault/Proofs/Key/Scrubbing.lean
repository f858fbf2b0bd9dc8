import TextVault.Proofs.Key.Alarm

/-
  Which secrets are left.

  Problem: a secret is scrubbed on three ways out of the cache: another credential replaces it, it is
  evicted on request, or its time is over. Installing it once more is no way out.

  Program: `Removes` are these ways out, as operations on the cache.

  Spec: `Guarded` says of everything ever accepted that it is either installed or gone, and of what is
  installed that it is not scrubbed; every operation keeps it (`Guarded.step`). What is gone stays gone
  (`isGone_step`), so it is refused ever after (`Guarded.refuses`), and each way out makes what was
  installed gone at once (`credential_of_removes`).
-/
namespace TextVault

/-! ## Secrets that are gone -/

namespace Keyring

/-- A credential that was made and has been scrubbed. -/
def IsGone (r : Keyring) (c : Credential) : Prop :=
  c.id < r.secrets.length ∧ r.isScrubbed c = true

/-- Only what was made can be unscrubbed. -/
theorem lt_of_not_isScrubbed {r : Keyring} {c : Credential} (h : r.isScrubbed c = false) :
    c.id < r.secrets.length := by
  rcases Nat.lt_or_ge c.id r.secrets.length with hlt | hge
  · exact hlt
  · rw [isScrubbed, bytes?, List.getElem?_eq_none hge] at h
    exact absurd h.symm Bool.false_ne_true

/-- A scrubbed credential keeps its place, so no other one can be taken for it. -/
@[simp] theorem length_scrub (r : Keyring) (c : Credential) :
    (r.scrub c).secrets.length = r.secrets.length := List.length_set

/-- Making a credential leaves those that were made before as they are. -/
theorem isScrubbed_create {r : Keyring} {c : Credential} (bytes : List UInt8)
    (h : c.id < r.secrets.length) : (r.create bytes).2.isScrubbed c = r.isScrubbed c := by
  rw [isScrubbed, isScrubbed, bytes?, bytes?]
  show (((r.secrets ++ [some bytes])[c.id]?).join).isNone = _
  rw [List.getElem?_append_left h]

/-- What is scrubbed is gone, if there was something to scrub. -/
theorem isGone_scrub {r : Keyring} {c : Credential} (h : r.isScrubbed c = false) :
    (r.scrub c).IsGone c :=
  ⟨by rw [length_scrub]; exact lt_of_not_isScrubbed h, by rw [isScrubbed_scrub]; simp⟩

variable {r : Keyring} {c : Credential}

/-- What is gone stays gone while others are made: a new credential has a place of its own. -/
theorem IsGone.create (h : r.IsGone c) (bytes : List UInt8) : (r.create bytes).2.IsGone c := by
  refine ⟨?_, ?_⟩
  · show c.id < (r.secrets ++ [some bytes]).length
    rw [List.length_append]
    exact Nat.lt_add_right _ h.1
  · rw [isScrubbed_create bytes h.1]
    exact h.2

theorem IsGone.scrub (h : r.IsGone c) (d : Credential) : (r.scrub d).IsGone c :=
  ⟨by rw [length_scrub]; exact h.1, by rw [isScrubbed_scrub, h.2, Bool.or_true]⟩

/-- Nothing is left of it for anyone who holds it. -/
theorem IsGone.bytes? (h : r.IsGone c) : r.bytes? c = none := Option.isNone_iff_eq_none.mp h.2

/-- It has no bytes that could be counted. -/
theorem IsGone.size (h : r.IsGone c) : r.size c = 0 := by
  rw [Keyring.size, h.bytes?]
  rfl

end Keyring

namespace KeyCache

/-! ## What a callback does to the secrets -/

/-- **A callback does one of three things**: nothing, as a late one; nothing but to use up the alarm; or an
eviction. -/
theorem fst_onAlarm (k : KeyCache) (number : Nat) :
    (k.onAlarm number).1 = k ∨ (k.onAlarm number).1 = { k with alarm := none } ∨
      (k.onAlarm number).1 = ({ k with alarm := none }).evict.1 := by
  rw [onAlarm]
  cases k.alarm with
  | none => exact Or.inl rfl
  | some held =>
    by_cases hn : held.number = number
    · simp only [hn, if_true]
      cases ({ k with alarm := none } : KeyCache).isEligible with
      | false => exact Or.inr (Or.inl rfl)
      | true => exact Or.inr (Or.inr rfl)
    · simp only [hn, if_false, true_or]

/-- A callback evicts or leaves alone what is installed. -/
theorem fst_fire (k : KeyCache) (id : AlarmId) :
    ∃ k' : KeyCache, k'.ring = k.ring ∧ k'.credential = k.credential ∧
      ((k.fire id).1 = k' ∨ (k.fire id).1 = k'.evict.1) := by
  rw [fire]
  cases k.clock.isUntaken id with
  | false => exact ⟨k, rfl, rfl, Or.inl rfl⟩
  | true =>
    simp only [if_true]
    cases k.callbacks[id]? with
    | none => exact ⟨{ k with clock := k.clock.take id }, rfl, rfl, Or.inl rfl⟩
    | some number =>
      rcases fst_onAlarm { k with clock := k.clock.take id } number with h | h | h
      · exact ⟨{ k with clock := k.clock.take id }, rfl, rfl, Or.inl h⟩
      · exact ⟨{ k with clock := k.clock.take id, alarm := none }, rfl, rfl, Or.inl h⟩
      · exact ⟨{ k with clock := k.clock.take id, alarm := none }, rfl, rfl, Or.inr h⟩

@[simp] theorem credential_scrub (k : KeyCache) (removed : Option Credential) :
    (k.scrub removed).credential = k.credential := by
  cases removed with
  | none => rfl
  | some c => rfl

/-- The keyring after scrubbing depends on the keyring before only. -/
theorem ring_scrub {k k' : KeyCache} (h : k'.ring = k.ring) (removed : Option Credential) :
    (k'.scrub removed).ring = (k.scrub removed).ring := by
  cases removed with
  | none => exact h
  | some c => exact congrArg (Keyring.scrub · c) h

/-! ## What is gone stays gone -/

variable {k : KeyCache} {c : Credential}

theorem isGone_scrub (h : k.ring.IsGone c) (removed : Option Credential) :
    (k.scrub removed).ring.IsGone c := by
  cases removed with
  | none => exact h
  | some d => exact h.scrub d

/-- A callback brings nothing back. -/
theorem isGone_fire (h : k.ring.IsGone c) (id : AlarmId) : (k.fire id).1.ring.IsGone c := by
  obtain ⟨k', hring, -, hkept | hevicted⟩ := k.fst_fire id
  · rw [hkept, hring]
    exact h
  · rw [hevicted, evict_eq]
    exact isGone_scrub (hring ▸ h) k'.credential

/-- **A scrubbed secret never comes back.** -/
theorem isGone_step (h : k.ring.IsGone c) (op : Op) : (k.step op).1.ring.IsGone c := by
  cases op with
  | create bytes => exact h.create bytes
  | install d =>
    show (k.install d).1.ring.IsGone c
    cases hs : k.ring.isScrubbed d with
    | true =>
      rw [install_of_isScrubbed hs]
      exact h
    | false =>
      rw [fst_install hs]
      -- Installing scrubs the credential replaced, and scrubbing another one brings nothing back.
      exact isGone_scrub (by rw [ring_rearm]; exact h) _
  | evict =>
    show k.evict.1.ring.IsGone c
    rw [evict_eq]
    exact isGone_scrub h k.credential
  | showSurface =>
    show (KeyCache.cancelAlarm _).ring.IsGone c
    rw [ring_cancelAlarm]
    exact h
  | hideSurface =>
    show (KeyCache.rearm _).ring.IsGone c
    rw [ring_rearm]
    exact h
  | setPolicy p =>
    show (KeyCache.rearm _).ring.IsGone c
    rw [ring_rearm]
    exact h
  | setUpgrading on => exact h
  | fire id => exact isGone_fire h id
  | advance ticks =>
    exact fireAll_invariant (P := fun k => k.ring.IsGone c) (fun _ id h => isGone_fire h id) _ _ h

/-- What is gone stays gone for good. -/
theorem isGone_run (h : k.ring.IsGone c) (ops : List Op) : (k.run ops).1.ring.IsGone c :=
  run_invariant (P := fun k => k.ring.IsGone c) (fun _ op h => isGone_step h op) ops k h

/-! ## Installed or gone -/

/-- What is installed is not scrubbed, and everything else of the given credentials is gone. -/
structure Guarded (k : KeyCache) (seen : List Credential) : Prop where
  current : ∀ c, k.credential = some c → k.ring.isScrubbed c = false
  others : ∀ c ∈ seen, k.credential = some c ∨ k.ring.IsGone c

namespace Guarded

variable {seen : List Credential}

/-- Only the keyring and what is installed count. -/
theorem congr {k' : KeyCache} (h : Guarded k seen) (hring : k'.ring = k.ring)
    (hcredential : k'.credential = k.credential) : Guarded k' seen :=
  ⟨by rw [hring, hcredential]; exact h.current, by rw [hring, hcredential]; exact h.others⟩

/-- Surfaces, policies, upgrades and time are no concern of the secrets. -/
theorem frame (h : Guarded k seen) (surfaces : Nat) (policy : LockPolicy) (upgrading : Bool)
    (clock : Clock) : Guarded { k with surfaces, policy, upgrading, clock } seen :=
  ⟨h.current, h.others⟩

/-- An alarm has no part in what is installed and what is gone, so giving it up keeps them apart. -/
theorem cancelAlarm (h : Guarded k seen) : Guarded k.cancelAlarm seen :=
  h.congr (ring_cancelAlarm k) (credential_cancelAlarm k)

/-- Neither has starting the interval anew. -/
theorem rearm (h : Guarded k seen) : Guarded k.rearm seen :=
  h.congr (ring_rearm k) (credential_rearm k)

/-- **An eviction takes what was installed to what is gone**, and installs nothing in its place. -/
theorem evict (h : Guarded k seen) : Guarded k.evict.1 seen := by
  rw [evict_eq]
  refine ⟨fun _ hn => (nomatch hn), fun c hc => Or.inr ?_⟩
  rcases h.others c hc with hcurrent | hgone
  · -- What was installed joins what is gone.
    show (k.scrub k.credential).ring.IsGone c
    rw [hcurrent]
    exact Keyring.isGone_scrub (h.current c hcurrent)
  · exact isGone_scrub hgone k.credential

/-- A callback evicts or does nothing to the secrets. -/
theorem fire (h : Guarded k seen) (id : AlarmId) : Guarded (k.fire id).1 seen := by
  obtain ⟨k', hring, hcredential, hkept | hevicted⟩ := k.fst_fire id
  · rw [hkept]
    exact h.congr hring hcredential
  · rw [hevicted]
    exact (h.congr hring hcredential).evict

/-- An accepted install scrubs what was installed, if that is another credential. -/
theorem install (h : Guarded k seen) (hc : k.ring.isScrubbed c = false) :
    Guarded (k.install c).1 (seen ++ [c]) := by
  rw [fst_install hc]
  have hkept : ({ k with credential := some c }).rearm.ring = k.ring := ring_rearm _
  have hring := ring_scrub hkept (k.credential.filter (· != c))
  constructor
  · intro d hd
    rw [credential_scrub, credential_rearm] at hd
    obtain rfl := Option.some.inj hd
    rw [hring]
    -- The replaced credential is scrubbed only if it is not this one.
    cases hold : k.credential.filter (· != c) with
    | none => exact hc
    | some old =>
      have hne : old ≠ c := by simpa using (Option.filter_eq_some_iff.mp hold).2
      show (k.ring.scrub old).isScrubbed c = false
      rw [Keyring.isScrubbed_scrub, hc]
      simpa using hne.symm
  · intro d hd
    rw [credential_scrub, credential_rearm, hring]
    -- What was installed before is installed again or has been scrubbed just now.
    rcases List.mem_append.mp hd with hseen | hnew
    · rcases h.others d hseen with hcurrent | hgone
      · by_cases hdc : d = c
        · exact Or.inl (by rw [hdc])
        · right
          rw [hcurrent, Option.filter_some, if_pos (by simpa using hdc)]
          exact Keyring.isGone_scrub (h.current d hcurrent)
      · exact Or.inr (isGone_scrub hgone _)
    · exact Or.inl (by rw [List.mem_singleton.mp hnew])

/-- A new credential has not been accepted yet, and is neither installed nor gone. -/
theorem create (h : Guarded k seen) (bytes : List UInt8) :
    Guarded (k.createCredential bytes).2 seen := by
  refine ⟨fun c hc => ?_, fun c hc => ?_⟩
  · have hlive := h.current c hc
    exact (Keyring.isScrubbed_create bytes (Keyring.lt_of_not_isScrubbed hlive)).trans hlive
  · exact (h.others c hc).imp_right fun hgone => hgone.create bytes

theorem append_nil (h : Guarded k seen) : Guarded k (seen ++ []) := by
  rw [List.append_nil]
  exact h

/-- **Every operation keeps what is installed apart from what is gone.** -/
theorem step (h : Guarded k seen) (op : Op) :
    Guarded (k.step op).1 (seen ++ (k.acceptedBy op).toList) := by
  cases op with
  | create bytes => exact (h.create bytes).append_nil
  | install c =>
    show Guarded (k.install c).1 (seen ++ (if k.ring.isScrubbed c then none else some c).toList)
    -- Only an install that is not refused adds to the accepted ones.
    cases hc : k.ring.isScrubbed c with
    | true =>
      rw [install_of_isScrubbed hc]
      exact h.append_nil
    | false => exact h.install hc
  | evict => exact h.evict.append_nil
  | showSurface => exact (h.frame (k.surfaces + 1) k.policy k.upgrading k.clock).cancelAlarm.append_nil
  | hideSurface => exact (h.frame (k.surfaces - 1) k.policy k.upgrading k.clock).rearm.append_nil
  | setPolicy p => exact (h.frame k.surfaces p k.upgrading k.clock).rearm.append_nil
  | setUpgrading on => exact (h.frame k.surfaces k.policy on k.clock).append_nil
  | fire id => exact (h.fire id).append_nil
  | advance ticks =>
    have hticked := h.frame k.surfaces k.policy k.upgrading (k.clock.tick ticks)
    exact (fireAll_invariant (P := fun k => Guarded k seen) (fun _ id h => h.fire id) _ _
      hticked).append_nil

/-- **So they are kept apart by every run**, over all that it accepts. -/
theorem run (h : Guarded k seen) (ops : List Op) :
    Guarded (k.run ops).1 (seen ++ k.accepted ops) := by
  induction ops generalizing k seen with
  | nil =>
    rw [accepted, List.append_nil]
    exact h
  | cons op ops ih =>
    rw [run_cons, accepted, ← List.append_assoc]
    exact ih (h.step op)

/-- What has been taken out is gone from then on: it never becomes the installed one again and is refused. -/
theorem refuses (h : Guarded k seen) (hgone : k.ring.IsGone c) (more : List Op) :
    (k.run more).1.credential ≠ some c ∧
      (k.run more).1.install c = ((k.run more).1, [.warn .scrubbedCredential]) := by
  have hstill : (k.run more).1.ring.IsGone c := isGone_run hgone more
  refine ⟨fun hcurrent => ?_, install_of_isScrubbed hstill.2⟩
  have hlive := (h.run more).current c hcurrent
  rw [hstill.2] at hlive
  nomatch hlive

/-- What was installed and is not any more after an operation is gone. -/
theorem isGone_of_step (h : Guarded k seen) (hc : k.credential = some c) {op : Op}
    (hne : (k.step op).1.credential ≠ some c) : (k.step op).1.ring.IsGone c := by
  have hself : Guarded k [c] := ⟨h.current, fun d hd => .inl (by rw [List.mem_singleton.mp hd]; exact hc)⟩
  exact ((hself.step op).others c (List.mem_append_left _ (List.mem_singleton_self c))).resolve_left hne

end Guarded

/-! ## The ways out -/

/-- The operations that take an installed credential out: an eviction, which is all that a shutdown does, the callback
of the live alarm, the time after which an alarm is due, and the install of another credential, unless that is
refused. -/
def Removes (k : KeyCache) (c : Credential) : Op → Prop
  | .evict => True
  | .fire id => id ∈ k.clock.live
  | .advance ticks => (k.clock.tick ticks).due ≠ []
  | .install d => d ≠ c ∧ k.ring.isScrubbed d = false
  | _ => False

/-- Nothing is due, or nothing but the alarm held. -/
theorem InOrder.due_cases (h : InOrder k) :
    k.clock.due = [] ∨ ∃ held, k.alarm = some held ∧ k.clock.due = [held.id] := by
  rw [Clock.due_eq_filter_live, h.live]
  cases ha : k.alarm with
  | none => exact .inl rfl
  | some held =>
    cases hreached : k.clock.isReached held.id with
    | false => exact .inl (List.filter_cons_of_neg (Bool.eq_false_iff.mp hreached))
    | true => exact .inr ⟨held, rfl, List.filter_cons_of_pos hreached⟩

/-- **After a way out the credential is not installed any more.** -/
theorem credential_of_removes (h : InOrder k) {op : Op} (hop : k.Removes c op) :
    (k.step op).1.credential ≠ some c := by
  cases op with
  | evict =>
    show k.evict.1.credential ≠ some c
    simp
  | fire id =>
    -- The live alarm is the one held, and that one evicts.
    have hlive : id ∈ k.clock.live := hop
    rw [h.live, Option.mem_toList] at hlive
    obtain ⟨held, ha, rfl⟩ := Option.map_eq_some_iff.mp hlive
    show (k.fire held.id).1.credential ≠ some c
    simp [h.fire_of_eq ha]
  | advance ticks =>
    have hticked := h.tick ticks
    rcases hticked.due_cases with hnone | ⟨held, ha, hdue⟩
    · exact absurd hnone hop
    · show (fireAll _ (k.clock.tick ticks).due).1.credential ≠ some c
      rw [hdue, fireAll_cons, hticked.fire_of_eq ha, fireAll]
      simp
  | install d =>
    obtain ⟨hne, hd⟩ := hop
    show (k.install d).1.credential ≠ some c
    rw [fst_install hd, credential_scrub, credential_rearm]
    exact fun heq => hne (Option.some.inj heq)
  | _ => exact hop.elim

/-- **Installed or gone.** After any run what is installed is not scrubbed, and nothing is left of any other
credential that was ever accepted: it never becomes the installed one again, and offering it does nothing
but to warn. So it is at once with what is installed when it is evicted, when the live alarm goes off, by hand or because
its time has come, and when another credential takes its place. Installing the installed one again scrubs nothing. -/
theorem scrubbed_of_run (p : LockPolicy) (clock : Clock) (ops : List Op) :
    let k := ((start p clock).run ops).1
    (∀ c, k.credential = some c → k.ring.isScrubbed c = false) ∧
    (∀ c ∈ (start p clock).accepted ops, k.credential ≠ some c →
      k.ring.bytes? c = none ∧ k.ring.size c = 0 ∧
      ∀ more, (k.run more).1.credential ≠ some c ∧
        (k.run more).1.install c = ((k.run more).1, [.warn .scrubbedCredential])) ∧
    (∀ c, k.credential = some c →
      (k.install c).1.credential = some c ∧ (k.install c).1.ring = k.ring) ∧
    (∀ c op, k.credential = some c → k.Removes c op →
      let k' := (k.step op).1
      k'.credential ≠ some c ∧ k'.ring.bytes? c = none ∧ k'.ring.size c = 0 ∧
      ∀ more, (k'.run more).1.credential ≠ some c ∧
        (k'.run more).1.install c = ((k'.run more).1, [.warn .scrubbedCredential])) := by
  intro k
  have hstart : Guarded (start p clock) [] :=
    ⟨fun _ hn => (nomatch hn), fun _ hn => (nomatch hn)⟩
  have h : Guarded k ([] ++ (start p clock).accepted ops) := hstart.run ops
  refine ⟨h.current, fun c hc hne => ?_, fun c hc => ?_, fun c op hc hop => ?_⟩
  · -- Every accepted credential is the current one or gone, and what is gone stays gone.
    have hgone : k.ring.IsGone c := (h.others c hc).resolve_left hne
    exact ⟨hgone.bytes?, hgone.size, h.refuses hgone⟩
  · rw [fst_install (h.current c hc), hc, Option.filter_some, if_neg (by simp)]
    exact ⟨by rw [credential_scrub, credential_rearm], ring_rearm _⟩
  · -- The operation takes the credential out of its place, so after it the credential is among the others.
    have hout : (k.step op).1.credential ≠ some c := credential_of_removes (.run p clock ops) hop
    have hgone := h.isGone_of_step hc hout
    exact ⟨hout, hgone.bytes?, hgone.size, (h.step op).refuses hgone⟩

/-- The second credential takes the place of the first, and then its time is over: its alarm is run, or five minutes
go by. The first is refused before that and both are after it. -/
theorem scrubbed_of_run_replaced :
    let ops := [.create [1], .create [2], .install ⟨0⟩, .install ⟨1⟩]
    let k := ((start (.after 5) {}).run ops).1
    let late := (k.step (.fire 1)).1
    ⟨0⟩ ∈ (start (.after 5) {}).accepted ops ∧ k.credential = some ⟨1⟩ ∧ k.Removes ⟨1⟩ (.fire 1) ∧
    k.ring.bytes? ⟨0⟩ = none ∧ k.install ⟨0⟩ = (k, [.warn .scrubbedCredential]) ∧
    (k.install ⟨1⟩).1.ring = k.ring ∧ late.credential ≠ some ⟨1⟩ ∧ late.ring.bytes? ⟨1⟩ = none ∧
    (late.run [.create [3], .install ⟨2⟩]).1.install ⟨1⟩ =
      ((late.run [.create [3], .install ⟨2⟩]).1, [.warn .scrubbedCredential]) ∧
    k.Removes ⟨1⟩ (.advance 300) ∧ (k.step (.advance 300)).1.ring.bytes? ⟨1⟩ = none := by
  intro ops k late
  have haccepted : ⟨0⟩ ∈ (start (.after 5) {}).accepted ops := by decide
  have hcurrent : k.credential = some ⟨1⟩ := by decide
  have hremoves : k.Removes ⟨1⟩ (.fire 1) := (by decide : 1 ∈ k.clock.live)
  have htimed : k.Removes ⟨1⟩ (.advance 300) := (by decide : (k.clock.tick 300).due ≠ [])
  obtain ⟨-, hothers, hagain, hout⟩ := scrubbed_of_run (.after 5) {} ops
  obtain ⟨hbytes, -, hrefused⟩ := hothers ⟨0⟩ haccepted (by rw [hcurrent]; decide)
  obtain ⟨hgone, hlost, -, hlater⟩ := hout ⟨1⟩ (.fire 1) hcurrent hremoves
  exact ⟨haccepted, hcurrent, hremoves, hbytes, (hrefused []).2, (hagain ⟨1⟩ hcurrent).2, hgone, hlost,
    (hlater [.create [3], .install ⟨2⟩]).2, htimed, (hout ⟨1⟩ (.advance 300) hcurrent htimed).2.1⟩

end KeyCache
end TextVault
