import TextVault.Labelled

/-
  The packed type of a stored message.

  Problem: one 64-bit word per message says in which mailbox it lies, whether it travelled in a secure
  session, how far a key exchange has come, whether its body could be decrypted and how the body is
  stored. The concerns use separate bits, but for one bit that two of them read.

  Program: `TypeMask.decode` reads each concern from its own bits; where several bits of one concern are
  set, the first in a fixed order wins. All other modules work on the decoded type.

  Spec: undocumented bits are inert, and each part of `Decoded` hangs on the bits of its own concern.
-/
namespace TextVault.Message

/-- The type word stored with a message. -/
structure TypeMask where
  bits : UInt64
  deriving DecidableEq, Repr

/-- Which way a message goes. -/
inductive Direction where
  | incoming
  | outgoing
  deriving DecidableEq, Repr

/-- The mailbox a message lies in. A value with no mailbox of its own is read as an incoming one. -/
inductive Mailbox where
  | inbox
  | outbox
  | sending
  | sent
  | sentFailed
  | unknown (value : UInt8)
  deriving DecidableEq, Repr

/-- Whether a message travelled in a secure session. -/
inductive Transit where
  | plain
  | secureSession
  deriving DecidableEq, Repr

/-- How far a key exchange has come. -/
inductive KeyExchange where
  | absent
  | processed
  | stale
  | corrupted
  | invalidVersion
  | pending
  deriving DecidableEq, Repr

/-- Whether the body could be decrypted. -/
inductive Decryption where
  | ready
  | inProgress
  | failed
  | noSession
  deriving DecidableEq, Repr

/-- How the body is stored. -/
inductive AtRest where
  | plain
  | symmetric
  | asymmetric
  | remote
  deriving DecidableEq, Repr

/-- A type word taken apart. -/
structure Decoded where
  mailbox : Mailbox
  direction : Direction
  transit : Transit
  keyExchange : KeyExchange
  decryption : Decryption
  atRest : AtRest
  deriving DecidableEq, Repr

/-! ## Mailboxes -/

namespace Mailbox

/-- The mailbox of the lowest byte. A byte that no mailbox has is kept as it is and not taken for the inbox. -/
def ofValue (value : UInt8) : Mailbox :=
  if value = 20 then inbox
  else if value = 21 then outbox
  else if value = 22 then sending
  else if value = 23 then sent
  else if value = 24 then sentFailed
  else unknown value

/-- Whether a message comes or goes follows from its mailbox; what is not known is taken to have come in. -/
def direction : Mailbox → Direction
  | outbox | sending | sent | sentFailed => .outgoing
  | inbox | unknown _ => .incoming

/-- On its way out. -/
def isPending : Mailbox → Bool
  | outbox | sending => true
  | _ => false

/-- The mailbox of messages that could not be sent, whatever the network reports of them. -/
def isFailed : Mailbox → Bool
  | sentFailed => true
  | _ => false

end Mailbox

/-- Anything but the absence of a key exchange. -/
def KeyExchange.isPresent : KeyExchange → Bool
  | absent => false
  | _ => true

/-! ## Decoding -/

namespace TypeMask

/-- Whether one of the given bits is set. -/
def has (m : TypeMask) (bit : UInt64) : Bool := m.bits &&& bit != 0

/-- The lowest byte is a value, not a set of bits. -/
def mailbox (m : TypeMask) : Mailbox := .ofValue (m.bits &&& 0xFF).toUInt8

/-- Whether the message was secured on its way by a session between the two sides. -/
def transit (m : TypeMask) : Transit :=
  if m.has 0x800000 then .secureSession else .plain

/-- What kind of key exchange the message is. The first bit that is set decides, from what is over to what is still
open, and none of them counts without the one that marks an exchange. -/
def keyExchange (m : TypeMask) : KeyExchange :=
  if !m.has 0x8000 then .absent
  else if m.has 0x2000 then .processed
  else if m.has 0x4000 then .stale
  else if m.has 0x1000 then .corrupted
  else if m.has 0x800 then .invalidVersion
  else .pending

/-- A body under an asymmetric key is still being decrypted. -/
def decryption (m : TypeMask) : Decryption :=
  if m.has 0x10000000 then .failed
  else if m.has 0x40000000 then .inProgress
  else if m.has 0x8000000 then .noSession
  else .ready

/-- How the body is encrypted in the store; the three bits rule each other out in the order given. -/
def atRest (m : TypeMask) : AtRest :=
  if m.has 0x80000000 then .symmetric
  else if m.has 0x40000000 then .asymmetric
  else if m.has 0x20000000 then .remote
  else .plain

/-- All that a type word says, one axis at a time. No axis looks at the bits of another, but for the one bit that is
both a key at rest and a decryption under way. -/
def decode (m : TypeMask) : Decoded where
  mailbox := m.mailbox
  direction := m.mailbox.direction
  transit := m.transit
  keyExchange := m.keyExchange
  decryption := m.decryption
  atRest := m.atRest

end TypeMask

/-! ## Labels -/

instance : Labelled Direction where
  all := [.incoming, .outgoing]
  label
    | .incoming => "Incoming"
    | .outgoing => "Outgoing"

instance : Labelled Transit where
  all := [.plain, .secureSession]
  label
    | .plain => "Plaintext"
    | .secureSession => "SessionEncrypted"

instance : Labelled KeyExchange where
  all := [.absent, .processed, .stale, .corrupted, .invalidVersion, .pending]
  label
    | .absent => "NotKeyExchange"
    | .processed => "Processed"
    | .stale => "Stale"
    | .corrupted => "Corrupted"
    | .invalidVersion => "InvalidVersion"
    | .pending => "Pending"

instance : Labelled Decryption where
  all := [.ready, .inProgress, .failed, .noSession]
  label
    | .ready => "Ready"
    | .inProgress => "InProgress"
    | .failed => "Failed"
    | .noSession => "NoRemoteSession"

instance : Labelled AtRest where
  all := [.plain, .symmetric, .asymmetric, .remote]
  label
    | .plain => "Plaintext"
    | .symmetric => "Symmetric"
    | .asymmetric => "Asymmetric"
    | .remote => "Remote"

example : (TypeMask.mk 0xE014).keyExchange = .processed := by decide
example : (TypeMask.mk 0x50000017).decryption = .failed := by decide
example : (TypeMask.mk 117).mailbox = .unknown 117 := by decide

end TextVault.Message
