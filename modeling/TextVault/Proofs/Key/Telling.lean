import TextVault.Proofs.Key.Scrubbing

/-
  Who is told of the credential.

  Problem: five observers follow what is installed, each in its own way: whoever asks the cache, the guard
  of the foreground, the subscribers of the bus, the pipeline and the notifier. They are told in different
  places; a refused credential tells nobody, an upgrade of the storage holds back the pipeline and the
  notifier, and an eviction tells of itself even if nothing was installed.

  Program: a `Change` is one change of what is installed, with all that is to be told of it. `changes` reads
  the changes of a run off its operations: the installs accepted, and the withdrawals, which are evictions
  and the callbacks of live alarms.

  Spec: the acts of a run tell of its changes in order, and of nothing else, and what is installed is what
  the last change left (`InOrder.tells_run`). What each observer sees is then a view of the changes.
-/
namespace TextVault

/-! ## What each observer sees -/

/-- What the guard read back whenever the process was to stay in the foreground. -/
def raises (calls : List HostCall) : List (Option Credential) :=
  calls.filterMap fun
    | .raise current => some current
    | _ => none

/-- What the guard read back whenever the process was let go. -/
def lowers (calls : List HostCall) : List (Option Credential) :=
  calls.filterMap fun
    | .lower current => some current
    | _ => none

/-- All that the guard was told. -/
def guardCalls (calls : List HostCall) : List HostCall :=
  calls.filterMap fun
    | .raise current => some (.raise current)
    | .lower current => some (.lower current)
    | _ => none

/-- What the pipeline was to decrypt with, and the bytes it found. -/
def drains (calls : List HostCall) : List (Credential × Option (List UInt8)) :=
  calls.filterMap fun
    | .drain c bytes => some (c, bytes)
    | _ => none

/-- What the notifications were rebuilt with. -/
def refreshes (calls : List HostCall) : List (Option Credential) :=
  calls.filterMap fun
    | .refresh c => some c
    | _ => none

/-- The credential that an event hands out. -/
def Event.installed? : Event → Option Credential
  | credentialInstalled c => some c
  | _ => none

/-! ## Changes -/

/-- A change of what is installed. -/
inductive Change where
  /-- A credential is installed. With a secret, the pipeline and the notifier are called. -/
  | installed (c : Credential) (secret : Option (List UInt8))
  | withdrawn
  deriving DecidableEq

namespace Change

/-- What is installed then. -/
def after : Change → Option Credential
  | installed c _ => some c
  | withdrawn => none

/-- What the bus is told. -/
def event : Change → Event
  | installed c _ => .credentialInstalled c
  | withdrawn => .credentialCleared

/-- What the guard is told. -/
def guardCall : Change → HostCall
  | installed c _ => .raise (some c)
  | withdrawn => .lower none

/-- What the guard reads back when it lets the process go. -/
def lower? : Change → Option (Option Credential)
  | installed _ _ => none
  | withdrawn => some none

/-- What the pipeline is told, if it is called. -/
def drain? : Change → Option (Credential × Option (List UInt8))
  | installed c secret => secret.map fun bytes => (c, some bytes)
  | withdrawn => none

/-- What the notifier is told, if it is called. -/
def refresh? : Change → Option (Option Credential)
  | installed c secret => secret.map fun _ => some c
  | withdrawn => some none

/-- What all collaborators are told, in order. -/
def calls : Change → List HostCall
  | installed c none => [.raise (some c)]
  | installed c (some bytes) => [.raise (some c), .drain c (some bytes), .refresh (some c)]
  | withdrawn => [.lower none, .refresh none]

/-- What is installed after changes, with what was installed before the first of them. -/
def afterAll (before : Option Credential) (cs : List Change) : Option Credential :=
  cs.foldl (fun _ change => change.after) before

theorem afterAll_append (before : Option Credential) (cs ds : List Change) :
    afterAll before (cs ++ ds) = afterAll (afterAll before cs) ds := List.foldl_append

/-- Only the last change counts. -/
theorem afterAll_eq_getLast? (before : Option Credential) (cs : List Change) :
    afterAll before cs = (cs.getLast?.map after).getD before := by
  rcases List.eq_nil_or_concat cs with rfl | ⟨init, last, rfl⟩
  · rfl
  · rw [List.concat_eq_append, afterAll_append, List.getLast?_concat]
    rfl

/-! ### The views of changes -/

/-- A view that sees at most one thing of each change. -/
theorem view_calls {α : Type} {see : HostCall → Option α} {seen : Change → Option α}
    (h : ∀ change : Change, change.calls.filterMap see = (seen change).toList) (cs : List Change) :
    (cs.flatMap calls).filterMap see = cs.filterMap seen := by
  induction cs with
  | nil => rfl
  | cons change cs ih =>
    rw [List.flatMap_cons, List.filterMap_append, h, ih]
    cases hseen : seen change with
    | none => rw [List.filterMap_cons_none hseen]; rfl
    | some a => rw [List.filterMap_cons_some hseen]; rfl

/-- The guard is raised once for each install, and reads back what was installed. -/
theorem raises_calls (cs : List Change) :
    raises (cs.flatMap calls) = cs.filterMap fun change => change.event.installed?.map some :=
  view_calls (by rintro (⟨c, _ | bytes⟩ | _) <;> rfl) cs

theorem lowers_calls (cs : List Change) : lowers (cs.flatMap calls) = cs.filterMap lower? :=
  view_calls (by rintro (⟨c, _ | bytes⟩ | _) <;> rfl) cs

/-- And it is told exactly one thing of each change. -/
theorem guardCalls_calls (cs : List Change) : guardCalls (cs.flatMap calls) = cs.map guardCall := by
  rw [← List.filterMap_eq_map]
  exact view_calls (by rintro (⟨c, _ | bytes⟩ | _) <;> rfl) cs

/-- The pipeline is called for the installs that have a secret to give. -/
theorem drains_calls (cs : List Change) : drains (cs.flatMap calls) = cs.filterMap drain? :=
  view_calls (by rintro (⟨c, _ | bytes⟩ | _) <;> rfl) cs

/-- The notifier is called for these and for every withdrawal. -/
theorem refreshes_calls (cs : List Change) : refreshes (cs.flatMap calls) = cs.filterMap refresh? :=
  view_calls (by rintro (⟨c, _ | bytes⟩ | _) <;> rfl) cs

/-! ### Withdrawals among changes -/

/-- A guard that is lowered reads back that nothing is installed, each time. -/
theorem filterMap_lower? (cs : List Change) :
    cs.filterMap lower? = List.replicate (cs.count withdrawn) none := by
  induction cs with
  | nil => rfl
  | cons change cs ih =>
    cases change with
    | installed c secret =>
      rw [List.filterMap_cons_none rfl, ih, List.count_cons_of_ne (by simp)]
    | withdrawn =>
      show none :: cs.filterMap lower? = _
      rw [ih, List.count_cons_self, List.replicate_succ]

/-- Notifications are rebuilt without content as often as a credential is withdrawn. -/
theorem count_none_refresh? (cs : List Change) :
    (cs.filterMap refresh?).count none = cs.count withdrawn := by
  induction cs with
  | nil => rfl
  | cons change cs ih =>
    rcases change with ⟨c, _ | bytes⟩ | _
    · rw [List.filterMap_cons_none rfl, ih, List.count_cons_of_ne (by simp)]
    · show (some c :: cs.filterMap refresh?).count none = _
      rw [List.count_cons_of_ne (by simp), ih, List.count_cons_of_ne (by simp)]
    · show (none :: cs.filterMap refresh?).count none = _
      rw [List.count_cons_self, ih, List.count_cons_self]

/-- The bus hears of each withdrawal once. -/
theorem count_credentialCleared (cs : List Change) :
    (cs.map event).count .credentialCleared = cs.count withdrawn := by
  induction cs with
  | nil => rfl
  | cons change cs ih =>
    cases change with
    | installed c secret =>
      rw [List.map_cons, event, List.count_cons_of_ne (by simp), ih, List.count_cons_of_ne (by simp)]
    | withdrawn => rw [List.map_cons, event, List.count_cons_self, ih, List.count_cons_self]

/-! ### The last change -/

/-- If nothing is installed in the end, the last refresh was without a credential. -/
theorem getLast?_refresh? {cs : List Change} (h : afterAll none cs = none) {shown : Option Credential}
    (hlast : (cs.filterMap refresh?).getLast? = some shown) : shown = none := by
  rcases List.eq_nil_or_concat cs with rfl | ⟨init, last, rfl⟩
  · nomatch hlast
  · rw [List.concat_eq_append, afterAll_append] at h
    cases last with
    | installed c secret => nomatch h
    | withdrawn =>
      have hview : (init.concat withdrawn).filterMap refresh? = init.filterMap refresh? ++ [none] := by
        rw [List.concat_eq_append, List.filterMap_append]
        rfl
      rw [hview, List.getLast?_concat] at hlast
      exact (Option.some.inj hlast).symm

/-- The pipeline finds a secret, and the notifier is called right after it with the same credential. -/
theorem refresh_after_drain {cs : List Change} {i : Nat} {c : Credential} {bytes : Option (List UInt8)}
    (h : (cs.flatMap calls)[i]? = some (.drain c bytes)) :
    bytes.isSome = true ∧ (cs.flatMap calls)[i + 1]? = some (.refresh (some c)) := by
  induction cs generalizing i with
  | nil => nomatch h
  | cons change cs ih =>
    rw [List.flatMap_cons] at h ⊢
    -- The call is one of the first change, or one of the later changes.
    rcases Nat.lt_or_ge i change.calls.length with hlt | hge
    · rw [List.getElem?_append_left hlt] at h
      rcases change with ⟨d, _ | secret⟩ | _
      · match i, h with
        | 0, h => nomatch h
      · -- Of the three calls only the second is one of the pipeline.
        match i, h with
        | 0, h => nomatch h
        | 1, h => cases h; exact ⟨rfl, rfl⟩
        | 2, h => nomatch h
      · match i, h with
        | 0, h => nomatch h
        | 1, h => nomatch h
    · rw [List.getElem?_append_right hge] at h
      have hnext : i + 1 - change.calls.length = i - change.calls.length + 1 := by omega
      rw [List.getElem?_append_right (by omega), hnext]
      exact ih h

end Change

/-- What is not scrubbed has its secret. -/
theorem Keyring.exists_secret {r : Keyring} {c : Credential} (h : r.isScrubbed c = false) :
    ∃ bytes, r.bytes? c = some bytes := by
  rw [isScrubbed, Option.isNone_eq_false_iff] at h
  exact Option.isSome_iff_exists.mp h

namespace KeyCache

/-! ## The changes of a run -/

/-- How many callbacks, run one after another, are of an alarm that is live when it goes off. -/
def liveFires (k : KeyCache) : List AlarmId → Nat
  | [] => 0
  | id :: ids => (if id ∈ k.clock.live then 1 else 0) + (k.fire id).1.liveFires ids

/-- How often an operation withdraws: an eviction once, time and hand by the live alarms they run. -/
def withdrawalsBy (k : KeyCache) : Op → Nat
  | .evict => 1
  | .fire id => k.liveFires [id]
  | .advance ticks =>
    ({ k with clock := k.clock.tick ticks } : KeyCache).liveFires (k.clock.tick ticks).due
  | _ => 0

/-- How often the operations of a run withdraw. -/
def withdrawals (k : KeyCache) : List Op → Nat
  | [] => 0
  | op :: ops => k.withdrawalsBy op + (k.step op).1.withdrawals ops

/-- What is to be decrypted with after an operation, and its secret: an install that is accepted while the
storage is not being upgraded. -/
def drainedBy (k : KeyCache) (op : Op) : List (Credential × Option (List UInt8)) :=
  if k.upgrading then [] else (k.acceptedBy op).toList.map fun c => (c, k.ring.bytes? c)

/-- What is to be decrypted with in a run, in order. -/
def drained (k : KeyCache) : List Op → List (Credential × Option (List UInt8))
  | [] => []
  | op :: ops => k.drainedBy op ++ (k.step op).1.drained ops

/-- The changes that an operation makes. -/
def changesBy (k : KeyCache) (op : Op) : List Change :=
  (k.acceptedBy op).toList.map (fun c => .installed c (if k.upgrading then none else k.ring.bytes? c)) ++
    List.replicate (k.withdrawalsBy op) .withdrawn

/-- The changes that a run makes, in order. -/
def changes (k : KeyCache) : List Op → List Change
  | [] => []
  | op :: ops => k.changesBy op ++ (k.step op).1.changes ops

/-- What is accepted has its secret. -/
theorem exists_secret_of_acceptedBy {k : KeyCache} {op : Op} {c : Credential}
    (h : k.acceptedBy op = some c) : ∃ bytes, k.ring.bytes? c = some bytes := by
  cases op with
  | install d =>
    rw [acceptedBy] at h
    split at h
    · nomatch h
    · next hlive =>
      obtain rfl := Option.some.inj h
      exact Keyring.exists_secret ((Bool.not_eq_true _).mp hlive)
  | _ => nomatch h

/-- What an operation installs is what it accepts. -/
theorem filterMap_installed?_changesBy (k : KeyCache) (op : Op) :
    (k.changesBy op).filterMap (fun change => change.event.installed?) =
      (k.acceptedBy op).toList := by
  rw [changesBy, List.filterMap_append, List.filterMap_replicate_of_none rfl, List.append_nil]
  cases k.acceptedBy op with
  | none => rfl
  | some c => rfl

/-- What it has decrypted is what it accepts, unless the storage is being upgraded. -/
theorem filterMap_drain?_changesBy (k : KeyCache) (op : Op) :
    (k.changesBy op).filterMap Change.drain? = k.drainedBy op := by
  rw [changesBy, drainedBy, List.filterMap_append, List.filterMap_replicate_of_none rfl,
    List.append_nil]
  cases hc : k.acceptedBy op with
  | none => split <;> rfl
  | some c =>
    obtain ⟨bytes, hbytes⟩ := exists_secret_of_acceptedBy hc
    simp only [Option.toList_some, List.map_cons, List.map_nil, hbytes]
    split <;> rfl

/-- It withdraws as often as counted: an install withdraws nothing of its own. -/
theorem count_withdrawn_changesBy (k : KeyCache) (op : Op) :
    (k.changesBy op).count .withdrawn = k.withdrawalsBy op := by
  rw [changesBy, List.count_append, List.count_replicate_self]
  cases k.acceptedBy op with
  | none => exact Nat.zero_add _
  | some c => exact Nat.zero_add _

theorem filterMap_installed?_changes (k : KeyCache) (ops : List Op) :
    (k.changes ops).filterMap (fun change => change.event.installed?) = k.accepted ops := by
  induction ops generalizing k with
  | nil => rfl
  | cons op ops ih =>
    rw [changes, accepted, List.filterMap_append, filterMap_installed?_changesBy, ih]

theorem filterMap_drain?_changes (k : KeyCache) (ops : List Op) :
    (k.changes ops).filterMap Change.drain? = k.drained ops := by
  induction ops generalizing k with
  | nil => rfl
  | cons op ops ih => rw [changes, drained, List.filterMap_append, filterMap_drain?_changesBy, ih]

/-- The withdrawals of a run are those of its operations. -/
theorem count_withdrawn_changes (k : KeyCache) (ops : List Op) :
    (k.changes ops).count .withdrawn = k.withdrawals ops := by
  induction ops generalizing k with
  | nil => rfl
  | cons op ops ih => rw [changes, withdrawals, List.count_append, count_withdrawn_changesBy, ih]

/-! ## Acts that tell of changes -/

/-- What comes of a cache tells of the given changes and of nothing else, and they are what has become of
the credential. -/
structure Tells (k : KeyCache) (result : KeyCache × List Act) (cs : List Change) : Prop where
  calls : hostCalls result.2 = cs.flatMap Change.calls
  events : TextVault.events result.2 = cs.map Change.event
  credential : result.1.credential = Change.afterAll k.credential cs

namespace Tells

variable {k : KeyCache} {r r' : KeyCache × List Act} {cs ds : List Change}

/-- Nothing is told where nothing changes. -/
theorem nothing {k' : KeyCache} (h : k'.credential = k.credential) : Tells k (k', []) [] :=
  ⟨rfl, rfl, h⟩

/-- One after the other. -/
theorem append (h : Tells k r cs) (h' : Tells r.1 r' ds) : Tells k (r'.1, r.2 ++ r'.2) (cs ++ ds) where
  calls := by rw [hostCalls_append, h.calls, h'.calls, List.flatMap_append]
  events := by rw [events_append, h.events, h'.events, List.map_append]
  credential := by rw [h'.credential, h.credential, Change.afterAll_append]

end Tells

/-- An eviction tells of one withdrawal, also if nothing was installed. -/
theorem tells_evict (k : KeyCache) : Tells k k.evict [.withdrawn] :=
  ⟨by rw [evict_eq]; rfl, by rw [evict_eq]; rfl, by rw [evict_eq]; rfl⟩

@[simp] theorem upgrading_rearm (k : KeyCache) : k.rearm.upgrading = k.upgrading := by
  rw [rearm]
  split
  · rw [cancelAlarm_eq]; rfl
  · rw [cancelAlarm_eq]

@[simp] theorem upgrading_scrub (k : KeyCache) (removed : Option Credential) :
    (k.scrub removed).upgrading = k.upgrading := by
  cases removed with
  | none => rfl
  | some c => rfl

/-- What is scrubbed to make room for a credential is another one, so that one keeps its secret. -/
theorem bytes?_scrub_replaced (k : KeyCache) (old : Option Credential) (c : Credential) :
    (k.scrub (old.filter (· != c))).ring.bytes? c = k.ring.bytes? c := by
  cases hold : old.filter (· != c) with
  | none => rfl
  | some d =>
    have hne : d ≠ c := by simpa using (Option.filter_eq_some_iff.mp hold).2
    show (k.ring.scrub d).bytes? c = k.ring.bytes? c
    rw [Keyring.bytes?_scrub, if_neg hne.symm]

/-- Whom an accepted install tells. -/
theorem snd_install {k : KeyCache} {c : Credential} (h : k.ring.isScrubbed c = false) :
    (k.install c).2 =
      [.call (.raise (some c)), .publish (.credentialInstalled c)] ++
        if k.upgrading then []
        else [.call (.drain c (k.ring.bytes? c)), .call (.refresh (some c))] := by
  rw [install, h]
  simp only [Bool.false_eq_true, if_false, credential_rearm, upgrading_scrub, upgrading_rearm,
    bytes?_scrub_replaced, ring_rearm]
  split <;> rfl

/-- An accepted install tells of itself. -/
theorem tells_install {k : KeyCache} {c : Credential} (h : k.ring.isScrubbed c = false) :
    Tells k (k.install c) [.installed c (if k.upgrading then none else k.ring.bytes? c)] := by
  obtain ⟨bytes, hbytes⟩ := Keyring.exists_secret h
  refine ⟨?_, ?_, ?_⟩
  · rw [snd_install h, hbytes]
    split <;> rfl
  · rw [snd_install h]
    split <;> rfl
  · rw [fst_install h, credential_scrub, credential_rearm]
    rfl

namespace InOrder

variable {k : KeyCache}

/-- The live alarm is the one held. -/
theorem mem_live_iff (h : InOrder k) (id : AlarmId) :
    id ∈ k.clock.live ↔ k.alarm.map (·.id) = some id := by
  rw [h.live, Option.mem_toList]

/-- A callback withdraws if its alarm is live, and otherwise nobody hears of it. -/
theorem tells_fire (h : InOrder k) (id : AlarmId) :
    Tells k (k.fire id) (List.replicate (k.liveFires [id]) .withdrawn) := by
  by_cases hlive : id ∈ k.clock.live
  · obtain ⟨held, ha, rfl⟩ := Option.map_eq_some_iff.mp ((h.mem_live_iff id).mp hlive)
    have htold := tells_evict k
    rw [liveFires, if_pos hlive, h.fire_of_eq ha]
    exact ⟨htold.calls, htold.events, htold.credential⟩
  · rw [liveFires, if_neg hlive]
    -- A stale callback: at most it marks its alarm as taken, and nobody hears of it.
    cases hu : k.clock.isUntaken id with
    | true =>
      rw [h.fire_of_ne (mt (h.mem_live_iff id).mpr hlive) hu]
      exact .nothing rfl
    | false =>
      rw [KeyCache.fire, hu]
      exact .nothing rfl

/-- Callbacks tell of as many withdrawals as there are live alarms among them, each live when its turn comes. -/
theorem tells_fireAll (h : InOrder k) (ids : List AlarmId) :
    Tells k (k.fireAll ids) (List.replicate (k.liveFires ids) .withdrawn) := by
  induction ids generalizing k with
  | nil => exact .nothing rfl
  | cons id ids ih =>
    have happend := (h.tells_fire id).append (ih (h.fire id))
    rw [List.replicate_append_replicate] at happend
    exact happend

/-- **Every operation tells of its changes.** -/
theorem tells_step (h : InOrder k) (op : Op) : Tells k (k.step op) (k.changesBy op) := by
  cases op with
  | create bytes => exact .nothing rfl
  | install c =>
    cases hs : k.ring.isScrubbed c with
    | true =>
      have hnobody : k.acceptedBy (.install c) = none := by rw [acceptedBy, hs]; rfl
      rw [changesBy, hnobody]
      show Tells k (k.install c) []
      rw [install_of_isScrubbed hs]
      exact ⟨rfl, rfl, rfl⟩
    | false =>
      have hc : k.acceptedBy (.install c) = some c := by rw [acceptedBy, hs]; rfl
      rw [changesBy, hc]
      exact tells_install hs
  | evict => exact tells_evict k
  | showSurface => exact .nothing (credential_cancelAlarm _)
  | hideSurface =>
    show Tells k k.hideSurface []
    refine ⟨?_, ?_, credential_rearm _⟩
    · rw [hideSurface]
      split <;> rfl
    · rw [hideSurface]
      split <;> rfl
  | setPolicy p => exact .nothing (credential_rearm _)
  | setUpgrading on => exact .nothing rfl
  | fire id => exact h.tells_fire id
  | advance ticks =>
    -- Time alone tells nothing; what falls due is told alarm by alarm.
    have htold := (h.tick ticks).tells_fireAll (k.clock.tick ticks).due
    exact ⟨htold.calls, htold.events, htold.credential⟩

/-- **A run tells of its changes in order**, and what is installed is what the last one left. -/
theorem tells_run (h : InOrder k) (ops : List Op) : Tells k (k.run ops) (k.changes ops) := by
  induction ops generalizing k with
  | nil => exact .nothing rfl
  | cons op ops ih => exact (h.tells_step op).append (ih (h.step op))

end InOrder

/-! ## The observers of a run -/

/-- **All observers agree, and each is told of everything once.** After any run the last word of the guard
and the last event are of the credential that is installed, or of its absence. Every raise reads back the
credential being installed and every lower reads back none. There is one raise and one event for each
install that is accepted; one lower, one event and one refresh without a credential for each withdrawal. The
drains are the installs accepted while nothing is upgraded, each with its secret and followed by its
refresh. Without a credential the notifications show none. -/
theorem told_of_run (p : LockPolicy) (clock : Clock) (ops : List Op) :
    let k := ((start p clock).run ops).1
    let calls := hostCalls ((start p clock).run ops).2
    let published := events ((start p clock).run ops).2
    (∀ c, (guardCalls calls).getLast? = some (.raise (some c)) ↔ k.credential = some c) ∧
    (∀ c, published.getLast? = some (.credentialInstalled c) ↔ k.credential = some c) ∧
    ((guardCalls calls).getLast? ∈ [none, some (.lower none)] ↔ k.credential = none) ∧
    (published.getLast? ∈ [none, some .credentialCleared] ↔ k.credential = none) ∧
    raises calls = ((start p clock).accepted ops).map some ∧
    published.filterMap Event.installed? = (start p clock).accepted ops ∧
    lowers calls = List.replicate ((start p clock).withdrawals ops) none ∧
    published.count .credentialCleared = (start p clock).withdrawals ops ∧
    (refreshes calls).count none = (start p clock).withdrawals ops ∧
    drains calls = (start p clock).drained ops ∧
    (∀ (i : Nat) c bytes, calls[i]? = some (.drain c bytes) →
      bytes.isSome = true ∧ calls[i + 1]? = some (.refresh (some c))) ∧
    (k.credential = none → ∀ shown, (refreshes calls).getLast? = some shown → shown = none) := by
  intro k calls published
  have htold : Tells (start p clock) ((start p clock).run ops) ((start p clock).changes ops) :=
    (InOrder.start p clock).tells_run ops
  have hcalls : calls = _ := htold.calls
  have hpublished : published = _ := htold.events
  have hcurrent : k.credential = Change.afterAll none _ := htold.credential
  have hlast := hcurrent.trans (Change.afterAll_eq_getLast? none _)
  rw [← filterMap_installed?_changes, ← filterMap_drain?_changes, ← count_withdrawn_changes, hcalls,
    hpublished, Change.raises_calls, Change.lowers_calls, Change.guardCalls_calls,
    Change.drains_calls, Change.refreshes_calls, Change.filterMap_lower?, Change.count_none_refresh?,
    Change.count_credentialCleared, List.getLast?_map, List.getLast?_map, hlast, List.filterMap_map,
    List.map_filterMap]
  refine ⟨?_, ?_, ?_, ?_, rfl, rfl, rfl, rfl, rfl, rfl, fun i c bytes => Change.refresh_after_drain,
    fun hnone shown => Change.getLast?_refresh? (hcurrent.symm.trans (hlast.trans hnone))⟩
  -- What the last change left is what it told everyone.
  all_goals cases ((start p clock).changes ops).getLast? with
    | none => simp
    | some change => cases change <;> simp [Change.guardCall, Change.event, Change.after]

end KeyCache

end TextVault
