import TextVault.Bus.Event
import TextVault.Intake.Payload
import TextVault.Message.Record

/-
  What the vault asks of the world.

  Problem: the vault decides, and others act: a pipeline that decrypts, a notifier, a guard that keeps
  the process in the foreground, a store, the bus and the log.

  Program: an operation of the vault gives the list of its acts in order. `hostCalls` and `events` are
  the views of the list that the collaborators and the bus have.

  Spec: both views go through appending (`hostCalls_append`, `events_append`).
-/
namespace TextVault

open Intake Message

/-- A call of one of the collaborators. -/
inductive HostCall where
  /-- Queue a payload for decryption. -/
  | enqueue (p : Payload)
  /-- Decrypt what has queued up; the bytes are those the pipeline finds in the credential. -/
  | drain (c : Credential) (bytes : Option (List UInt8))
  /-- Rebuild the notifications, without content if there is no credential. -/
  | refresh (c : Option Credential)
  /-- Keep the process in the foreground; a guard that asks the vault back is told `current`. -/
  | raise (current : Option Credential)
  /-- Let the process go to the background. -/
  | lower (current : Option Credential)
  /-- Read a message from the store. -/
  | read (key : RecordKey) (c : Option Credential)
  deriving DecidableEq, Repr

/-- Something unusual, told to the log. -/
inductive Warning where
  | scrubbedCredential
  | noSurface
  deriving DecidableEq, Repr

/-- The text of a warning in the log, with the operation that gives it. -/
def Warning.message : Warning → String
  | scrubbedCredential => "[install] refusing a credential that was already scrubbed"
  | noSurface => "[note_surface_hidden] no visible surface to hide"

/-- One thing that the vault does to the world outside of it: it calls a collaborator, publishes an event, or writes
to the log. -/
inductive Act where
  | call (c : HostCall)
  | publish (e : Event)
  | warn (w : Warning)
  deriving DecidableEq, Repr

/-- The calls among the acts. -/
def hostCalls (acts : List Act) : List HostCall :=
  acts.filterMap fun
    | .call c => some c
    | _ => none

/-- The events among the acts. -/
def events (acts : List Act) : List Event :=
  acts.filterMap fun
    | .publish e => some e
    | _ => none

/-- The warnings among the acts. -/
def warnings (acts : List Act) : List Warning :=
  acts.filterMap fun
    | .warn w => some w
    | _ => none

/-- What the collaborators see of two stretches of acts is what they see of each, one after the other. -/
@[simp] theorem hostCalls_append (xs ys : List Act) :
    hostCalls (xs ++ ys) = hostCalls xs ++ hostCalls ys := List.filterMap_append

/-- The bus sees the acts stretch by stretch too, so what it is told in a run can be told operation by operation. -/
@[simp] theorem events_append (xs ys : List Act) : events (xs ++ ys) = events xs ++ events ys :=
  List.filterMap_append

end TextVault
