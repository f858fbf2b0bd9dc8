import TextVault.Act
import TextVault.Alarm.Clock
import TextVault.Key.Policy

/-
  The key cache.

  Problem: an unlocked credential is held for as long as it is used, and withdrawn on request or when
  no surface has shown decrypted content for the interval of the policy. Everyone concerned is told,
  and the bytes of a credential withdrawn or replaced are scrubbed.

  Program: `KeyCache` holds the installed credential, the number of visible surfaces, the policy and the
  one alarm it waits for, together with the keyring and the clock it acts on. An alarm is wanted exactly
  when `isEligible`: no surface is visible, a credential is installed and the timeout is on. Each
  operation that may change this cancels the alarm and arms a new one if one is wanted (`rearm`). The
  cache numbers its alarms, and the callback of each brings its number along (`onAlarm`).

  Drains, refreshes and the delivery of events run aside, one after another in the order in which they were
  begun. They are taken as done by the end of the operation that begins them, so an act of the list is one
  that whoever looks between two operations sees.

  Spec: `fire` runs the callback of any alarm, late or cancelled as it may be; only the number of the
  alarm held now evicts. An operation gives the cache after it and its acts in order.
-/
namespace TextVault

/-- The alarm that a cache waits for. -/
structure HeldAlarm where
  /-- What its callback brings along. -/
  number : Nat
  id : AlarmId
  deriving DecidableEq, Repr

/-- The key cache with everything it acts on: its keyring, its clock and the policy it goes by. What it tells to
others it gives as acts and does not keep. -/
structure KeyCache where
  ring : Keyring := {}
  clock : Clock := {}
  credential : Option Credential := none
  /-- How many surfaces show decrypted content. -/
  surfaces : Nat := 0
  policy : LockPolicy := {}
  /-- The alarm that will withdraw the credential. -/
  alarm : Option HeldAlarm := none
  /-- The number for the next alarm. -/
  nextNumber : Nat := 0
  /-- The numbers that the callbacks on the clock bring along, in arming order. -/
  callbacks : List Nat := []
  /-- The storage is being upgraded, so nothing can be decrypted into it. -/
  upgrading : Bool := false
  deriving DecidableEq, Repr

namespace KeyCache

/-- A new cache, on a clock of its own. -/
def start (p : LockPolicy) (clock : Clock) : KeyCache := { policy := p, clock := clock.bare }

/-! ## The alarm -/

/-- Whether the credential is to be withdrawn after the interval. -/
def isEligible (k : KeyCache) : Bool :=
  k.surfaces == 0 && k.credential.isSome && k.policy.timeoutEnabled

/-- Whether there is an alarm that the cache still waits for. -/
def isArmed (k : KeyCache) : Bool := k.alarm.isSome

/-- Gives up the alarm, if there is one. Its callback may still be run by hand, and is then a late one. -/
def cancelAlarm (k : KeyCache) : KeyCache :=
  match k.alarm with
  | some held => { k with alarm := none, clock := k.clock.cancel held.id }
  | none => k

/-- Arms an alarm for the whole interval of the policy, and writes down the number that its callback brings along. -/
def armAlarm (k : KeyCache) : KeyCache :=
  let (id, clock) := k.clock.arm (k.clock.ticks k.policy.interval)
  { k with
    alarm := some ⟨k.nextNumber, id⟩
    nextNumber := k.nextNumber + 1
    callbacks := k.callbacks ++ [k.nextNumber]
    clock }

/-- Gives up the alarm and starts the interval anew if there is to be one. -/
def rearm (k : KeyCache) : KeyCache :=
  let k := k.cancelAlarm
  if k.isEligible then k.armAlarm else k

/-! ## Installing and evicting -/

/-- Scrubs a credential that has been taken out of the cache. -/
def scrub (k : KeyCache) (removed : Option Credential) : KeyCache :=
  match removed with
  | some c => { k with ring := k.ring.scrub c }
  | none => k

/-- Makes a credential the installed one. A scrubbed one is refused; another one that was installed is
scrubbed; unless the storage is being upgraded, what has queued up is decrypted with the new one. The drain
and the refresh are only begun here, and taken as done by the end of the operation. -/
def install (k : KeyCache) (c : Credential) : KeyCache × List Act :=
  if k.ring.isScrubbed c then (k, [.warn .scrubbedCredential])
  else
    -- A credential installed once more is not replaced, and keeps its secret.
    let replaced := k.credential.filter (· != c)
    let k := ({ k with credential := some c }).rearm
    let told := [.call (.raise k.credential), .publish (.credentialInstalled c)]
    let k := k.scrub replaced
    if k.upgrading then (k, told)
    else (k, told ++ [.call (.drain c (k.ring.bytes? c)), .call (.refresh (some c))])

/-- Scrubs what was installed and tells everyone, even if it was nothing. The refresh is only begun here, and
taken as done by the end of the operation. -/
def finishEviction (k : KeyCache) (removed : Option Credential) : KeyCache × List Act :=
  let k := k.scrub removed
  (k, [.call (.lower k.credential), .publish .credentialCleared, .call (.refresh none)])

/-- Takes the installed credential out. -/
def withdraw (k : KeyCache) : KeyCache := { k.cancelAlarm with credential := none }

/-- Withdraws the installed credential. This is all that a shutdown does to the key cache. -/
def evict (k : KeyCache) : KeyCache × List Act := k.withdraw.finishEviction k.credential

/-! ## Surfaces and policy -/

/-- A surface that shows decrypted content appears. -/
def showSurface (k : KeyCache) : KeyCache := ({ k with surfaces := k.surfaces + 1 }).cancelAlarm

/-- A surface disappears, and the interval starts anew if it was the last. -/
def hideSurface (k : KeyCache) : KeyCache × List Act :=
  (({ k with surfaces := k.surfaces - 1 }).rearm,
    if k.surfaces = 0 then [.warn .noSurface] else [])

/-- Puts another policy in force. The interval starts anew even if it is the same policy once more. -/
def setPolicy (k : KeyCache) (p : LockPolicy) : KeyCache := ({ k with policy := p }).rearm

/-! ## Alarms that go off -/

/-- What a callback does that brings the given number. -/
def onAlarm (k : KeyCache) (number : Nat) : KeyCache × List Act :=
  match k.alarm with
  | some held =>
    if held.number = number then
      let k := { k with alarm := none }
      if k.isEligible then k.evict else (k, [])
    else (k, [])
  | none => (k, [])

/-- Runs the callback of an alarm, unless it has been run. -/
def fire (k : KeyCache) (id : AlarmId) : KeyCache × List Act :=
  if k.clock.isUntaken id then
    let k := { k with clock := k.clock.take id }
    match k.callbacks[id]? with
    | some number => k.onAlarm number
    | none => (k, [])
  else (k, [])

/-- Runs the callbacks of the given alarms. -/
def fireAll (k : KeyCache) : List AlarmId → KeyCache × List Act
  | [] => (k, [])
  | id :: ids =>
    let (k, acts) := k.fire id
    let (k, more) := k.fireAll ids
    (k, acts ++ more)

/-- Runs the callbacks of the alarms that are due. -/
def settle (k : KeyCache) : KeyCache × List Act := k.fireAll k.clock.due

/-- Moves the clock on and runs the callbacks of the alarms that are due then. -/
def advance (k : KeyCache) (ticks : Nat) : KeyCache × List Act :=
  ({ k with clock := k.clock.tick ticks }).settle

/-! ## Runs -/

/-- Makes a credential that is known from then on. -/
def createCredential (k : KeyCache) (bytes : List UInt8) : Credential × KeyCache :=
  let (c, ring) := k.ring.create bytes
  (c, { k with ring })

/-- What can happen to the cache. -/
inductive Op where
  | create (bytes : List UInt8)
  | install (c : Credential)
  | evict
  | showSurface
  | hideSurface
  | setPolicy (p : LockPolicy)
  | setUpgrading (on : Bool)
  | fire (id : AlarmId)
  | advance (ticks : Nat)
  deriving DecidableEq, Repr

/-- Does one operation; the acts are those of the operation and of every callback that it let run. -/
def step (k : KeyCache) : Op → KeyCache × List Act
  | .create bytes => ((k.createCredential bytes).2, [])
  | .install c => k.install c
  | .evict => k.evict
  | .showSurface => (k.showSurface, [])
  | .hideSurface => k.hideSurface
  | .setPolicy p => (k.setPolicy p, [])
  | .setUpgrading on => ({ k with upgrading := on }, [])
  | .fire id => k.fire id
  | .advance ticks => k.advance ticks

/-- Does operations one after another; gives all acts in order. -/
def run (k : KeyCache) : List Op → KeyCache × List Act
  | [] => (k, [])
  | op :: ops =>
    let (k, acts) := k.step op
    let (k, more) := k.run ops
    (k, acts ++ more)

end KeyCache

end TextVault
