import TextVault.Key.Credential
import TextVault.Labelled

/-
  Events of the vault.

  Program: an event tells of the credential, or hands on a registration code. Its kind is what
  subscribers choose by.
-/
namespace TextVault

/-- The kinds of events, without what the events bring along. -/
inductive EventKind where
  | credentialInstalled
  | credentialCleared
  | challengeReceived
  deriving DecidableEq, Repr

instance : Labelled EventKind where
  all := [.credentialInstalled, .credentialCleared, .challengeReceived]
  label
    | .credentialInstalled => "CredentialInstalled"
    | .credentialCleared => "CredentialCleared"
    | .challengeReceived => "ChallengeReceived"

/-- What the vault tells its subscribers. -/
inductive Event where
  /-- A credential became available; the event carries it. -/
  | credentialInstalled (c : Credential)
  | credentialCleared
  /-- A code was taken from an inbound challenge. -/
  | challengeReceived (code : String)
  deriving DecidableEq, Repr

namespace Event

/-- The kind of an event, which is all that a subscriber can choose by. -/
def kind : Event → EventKind
  | credentialInstalled _ => .credentialInstalled
  | credentialCleared => .credentialCleared
  | challengeReceived _ => .challengeReceived

/-- The event in words; it gives nothing secret away. -/
def summary : Event → String
  | credentialInstalled _ => "credential installed"
  | credentialCleared => "credential cleared"
  | challengeReceived _ => "challenge received"

end Event

end TextVault
