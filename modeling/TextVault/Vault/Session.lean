import TextVault.Named
import TextVault.Vault.Basic

/-
  A session with one vault.

  Problem: a host works with a vault by names of its own: it makes credentials, subscribes, stores rows,
  holds records, and lets time pass or runs alarms by hand. It may drop the vault and keep the rest.

  Program: `Session` is a vault with those names, the host's store, and how the host is made (`Host`).
  `Session.step` does one operation. On a clock the alarms that are due run when the operation is over.

  Spec: once the vault is dropped only the credentials, the alarms that are left and what the
  subscribers have not read yet remain, and an alarm that goes off does nothing.
-/
namespace TextVault

open Intake Message

/-- How alarms are run. -/
inductive Timing where
  /-- By hand, one by one. -/
  | manual
  | clock
  deriving DecidableEq, Repr

/-- How the host is made. -/
structure Host where
  timing : Timing := .manual
  /-- The foreground guard asks the vault for its credential. -/
  guardAsks : Bool := false
  /-- The host has no guard, and no migration that is ever under way. -/
  plain : Bool := false
  deriving DecidableEq, Repr

namespace Host

/-- A call as the host's collaborators see it. -/
def sees (h : Host) : HostCall → Option HostCall
  | .raise c => if h.plain then none else some (.raise (if h.guardAsks then c else none))
  | .lower c => if h.plain then none else some (.lower (if h.guardAsks then c else none))
  | c => some c

end Host

/-- A vault with the host it runs in: its store, the subscribers, and the credentials that were made, by name. -/
structure Session where
  host : Host := {}
  vault : Vault := {}
  /-- The vault has not been dropped. -/
  isOpen : Bool := true
  store : Store := []
  credentials : Named Credential := {}
  /-- The name each credential was made under. -/
  madeAs : List String := []
  subscribers : Named Subscription := {}

namespace Session

/-- What can happen in a session. Credentials, subscribers and holders are given by name. -/
inductive Op where
  /-- Makes a credential and installs it. -/
  | unlock (as : String) (bytes : List UInt8)
  | install (credential : String)
  | keys (op : KeyCache.Op)
  | shutdown
  | isInstalled (credential : String)
  | credential (name : String)
  | fire (id : AlarmId)
  | advance (seconds : Nat)
  | setUpgrading (on : Bool)
  | setImported (on : Bool)
  | setAcceptAll (on : Bool)
  | setAwaitingVerification (on : Bool)
  | receive (p : Payload)
  | store (row : Row)
  | unstore (key : RecordKey)
  | record (key : RecordKey) (holder : Option String)
  | release (holder : String)
  | clearRecords
  | classify (mask : TypeMask) (status : Int32) (plaintext : Bool) (body : String)
  | subscribe (as : String) (kind : Option EventKind)
  | drain (subscriber : String)
  | unsubscribe (subscriber : String)
  | drop

/-- What an operation is answered with. -/
inductive Answer where
  | done
  | truth (b : Bool)
  /-- What is left of a credential. -/
  | bytes (b : Option (List UInt8)) (size : Nat) (details : String)
  | disposition (d : Disposition)
  | record (r : Option Record)
  | classification (c : Classification)
  | events (es : List Event) (missed : Nat)
  /-- A name that nothing has. -/
  | refused

/-- A session with a vault just started. -/
def ofVault (host : Host) (vault : Vault) : Session := { host, vault }

/-- The name a credential was made under. -/
def credentialName (s : Session) (c : Credential) : String := (s.madeAs[c.id]?).getD ""

/-- What is left of the credentials that the session has made. -/
def keyring (s : Session) : Keyring := s.vault.keys.ring

/-- Does an operation of the key cache. -/
def onKeys (s : Session) (op : KeyCache.Op) : Session × Answer × List Act :=
  let (vault, acts) := s.vault.onKeys op
  ({ s with vault }, .done, acts)

/-- Runs an alarm by hand. -/
def fire (s : Session) (id : AlarmId) : Session × Answer × List Act :=
  -- The answer is whether there was a callback to run. With the vault gone it is only marked as taken.
  let there := s.vault.keys.clock.isUntaken id
  if s.isOpen then
    let (s, _, acts) := s.onKeys (.fire id)
    (s, .truth there, acts)
  else
    let keys := s.vault.keys
    let clock := if there then keys.clock.take id else keys.clock
    ({ s with vault := { s.vault with keys := { keys with clock } } }, .truth there, [])

/-- Makes a credential under a name. -/
def create (s : Session) (as : String) (bytes : List UInt8) : Credential × Session :=
  let (c, keys) := s.vault.keys.createCredential bytes
  (c, { s with
    vault := { s.vault with keys }
    credentials := s.credentials.set as c
    madeAs := s.madeAs ++ [as] })

/-- Does an operation. -/
def perform (s : Session) : Op → Session × Answer × List Act
  | .unlock as bytes =>
    let (c, s) := s.create as bytes
    s.onKeys (.install c)
  | .install credential =>
    match s.credentials.get? credential with
    | some c => s.onKeys (.install c)
    | none => (s, .refused, [])
  | .keys op => s.onKeys op
  | .shutdown =>
    let (vault, acts) := s.vault.shutdown
    ({ s with vault }, .done, acts)
  | .isInstalled credential =>
    match s.credentials.get? credential with
    | some c => (s, .truth (s.vault.keys.credential == some c), [])
    | none => (s, .refused, [])
  | .credential name =>
    match s.credentials.get? name with
    | some c => (s, .bytes (s.keyring.bytes? c) (s.keyring.size c) c.details, [])
    | none => (s, .refused, [])
  | .fire id => s.fire id
  | .advance seconds =>
    if s.isOpen then s.onKeys (.advance (s.vault.keys.clock.ticks seconds)) else (s, .done, [])
  | .setUpgrading on =>
    if s.host.plain then (s, .done, []) else s.onKeys (.setUpgrading on)
  | .setImported on =>
    if s.host.plain then (s, .done, [])
    else ({ s with vault := { s.vault with imported := on } }, .done, [])
  | .setAcceptAll on => ({ s with vault := s.vault.setAcceptAll on }, .done, [])
  | .setAwaitingVerification on =>
    ({ s with vault := s.vault.setAwaitingVerification on }, .done, [])
  | .receive p =>
    let (vault, disposition, acts) := s.vault.receive p
    ({ s with vault }, .disposition disposition, acts)
  | .store row => ({ s with store := s.store.put row }, .done, [])
  | .unstore key => ({ s with store := s.store.remove key }, .done, [])
  | .record key holder =>
    let reader : Vault.Reader := fun key _ => s.store.read s.vault.classifier key
    let (r, vault, acts) := s.vault.record reader key holder
    ({ s with vault }, .record (r.map (·.value)), acts)
  | .release holder => ({ s with vault := s.vault.release holder }, .done, [])
  | .clearRecords => ({ s with vault := s.vault.clearRecords }, .done, [])
  | .classify mask status plaintext body =>
    (s, .classification (s.vault.classifier.classify mask status plaintext body), [])
  | .subscribe as kind =>
    ({ s with subscribers := s.subscribers.set as (.start s.vault.bus kind) }, .done, [])
  | .drain subscriber =>
    match s.subscribers.get? subscriber with
    | none => (s, .refused, [])
    | some sub =>
      let (es, sub) := sub.drain s.vault.bus
      ({ s with subscribers := s.subscribers.set subscriber sub }, .events es sub.missed, [])
  | .unsubscribe subscriber =>
    ({ s with subscribers := s.subscribers.erase subscriber }, .done, [])
  | .drop => ({ s with isOpen := false }, .done, [])

/-- Runs the alarms that are due, if they run by the clock. -/
def settle (s : Session) : Session × List Act :=
  if s.isOpen && s.host.timing == .clock then
    let (s, _, acts) := s.onKeys (.advance 0)
    (s, acts)
  else (s, [])

/-- Does an operation and what becomes due by it. -/
def step (s : Session) (op : Op) : Session × Answer × List Act :=
  let (s, answer, acts) := s.perform op
  let (s, more) := s.settle
  (s, answer, acts ++ more)

/-- The calls that the host's collaborators see. -/
def seenCalls (s : Session) (acts : List Act) : List HostCall :=
  (hostCalls acts).filterMap s.host.sees

/-- Does operations one after another; gives the answers and the acts of each. -/
def run (s : Session) : List Op → Session × List (Answer × List Act)
  | [] => (s, [])
  | op :: ops =>
    let (s, answer, acts) := s.step op
    let (s, more) := s.run ops
    (s, (answer, acts) :: more)

end Session

end TextVault
