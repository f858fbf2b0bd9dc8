import TextVault.Bus.Subscription
import TextVault.Intake.Verdict
import TextVault.Key.Cache
import TextVault.Settings.Basic
import TextVault.Shelf.Basic
import TextVault.Vault.Store

/-
  The vault.

  Problem: the parts of a secure text client share one bus and one set of collaborators: the key cache,
  the intake of inbound messages, and the records of stored ones.

  Program: `Vault.ofSettings` puts the parts together. An operation of a part is one of the vault; its
  events go to the shared bus (`Vault.publishAll`), and its other acts are for the host.

  Spec: the key cache and the intake have nothing in common but the bus, and records are read with the
  credential installed at the time of reading.
-/
namespace TextVault

open Intake Message

/-- How many events the vault's bus keeps. -/
def busCapacity : Nat := 64

/-- The whole vault: its parts, and what it has been told about the world. -/
structure Vault where
  classifier : Classifier := {}
  keys : KeyCache := {}
  switches : Switches := {}
  /-- The messages of the old store have been imported. -/
  imported : Bool := true
  bus : Bus := .ofCapacity busCapacity
  shelf : Shelf RecordKey Record := .ofCapacity 40

/-- Why a vault does not start. -/
inductive StartError where
  /-- There is nothing to run alarms on. -/
  | noRuntime
  | settings (e : SettingError)
  deriving DecidableEq, Repr

/-- What is said of a vault that does not start. What is wrong with the settings is told apart from this. -/
def StartError.message : StartError → String
  | noRuntime => "bootstrap_core must run inside a tokio runtime"
  | settings _ => "invalid core configuration"

namespace Vault

/-- The vault with the given settings. -/
def ofSettings (s : Settings) : Vault where
  classifier := { scale := s.scale }
  keys := .start s.lock {}
  switches := s.intake
  shelf := .ofCapacity s.recordCapacity.toNat

/-- Starts a vault, if there is something to run alarms on and the settings make sense. -/
def start (hasRuntime : Bool) (s : Settings) : Except StartError Vault :=
  if hasRuntime then
    match s.check with
    | .ok () => .ok (ofSettings s)
    | .error e => .error (.settings e)
  else .error .noRuntime

/-! ## The key cache -/

/-- Publishes the events among the acts. -/
def publishAll (v : Vault) (acts : List Act) : Vault :=
  { v with bus := (events acts).foldl Channel.publish v.bus }

/-- Does an operation of the key cache. -/
def onKeys (v : Vault) (op : KeyCache.Op) : Vault × List Act :=
  let (keys, acts) := v.keys.step op
  (({ v with keys }).publishAll acts, acts)

/-! ## The intake -/

/-- The acts that a verdict asks for. -/
def actsOf (p : Payload) : Verdict → List Act
  | .exempt _ => []
  | .challenge code => [.publish (.challengeReceived code)]
  | .relevant => [.call (.enqueue p)]

/-- Screens an inbound payload and acts on the verdict. -/
def receive (v : Vault) (p : Payload) : Vault × Disposition × List Act :=
  let verdict := (screen v.switches p).resolve v.imported
  let acts := actsOf p verdict
  (v.publishAll acts, verdict.disposition, acts)

/-- Claims every payload from now on, or only secure traffic. Payloads already handled are not looked at again. -/
def setAcceptAll (v : Vault) (on : Bool) : Vault :=
  { v with switches := { v.switches with acceptAll := on } }

/-- Tells whether a registration waits for a code. -/
def setAwaitingVerification (v : Vault) (on : Bool) : Vault :=
  { v with switches := { v.switches with awaitingVerification := on } }

/-! ## Records -/

/-- Reads a record from the store with the credential there is. -/
abbrev Reader := RecordKey → Option Credential → Option Record

/-- The record of a key, from the shelf or through the reader, and who holds it from now on. -/
def record (v : Vault) (reader : Reader) (key : RecordKey) (holder : Option String) :
    Option (Shared Record) × Vault × List Act :=
  let c := v.keys.credential
  let found := v.shelf.getOrLoad Record.key key (fun _ => reader key c) holder
  (found.value, { v with shelf := found.shelf },
    if found.didLoad then [.call (.read key c)] else [])

/-- Lets go of what a holder held; the shelf finds it only as long as another holder holds it. -/
def release (v : Vault) (holder : String) : Vault := { v with shelf := v.shelf.release holder }

/-- Forgets the records without asking whether anybody still holds them. -/
def clearRecords (v : Vault) : Vault := { v with shelf := v.shelf.clear }

/-- Evicts the credential and forgets the records. -/
def shutdown (v : Vault) : Vault × List Act :=
  let (v, acts) := v.onKeys .evict
  (v.clearRecords, acts)

end Vault

end TextVault
