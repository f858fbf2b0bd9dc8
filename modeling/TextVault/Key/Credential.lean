/-
  Credentials.

  Problem: the bytes of an unlocked key are shared by everyone who was handed the credential, and when
  it is withdrawn they must be gone for all of them at once.

  Program: a credential is a number in a `Keyring`, which holds the bytes of each. `Keyring.scrub` takes
  the bytes away; nothing brings them back.

  Spec: `bytes?_scrub` says what scrubbing does to every credential.
-/
namespace TextVault

/-- A credential; handles with the same number share one secret. -/
structure Credential where
  id : Nat
  deriving DecidableEq, Repr

/-- How a credential appears in a log. -/
def Credential.details (_ : Credential) : String := "Credential([REDACTED])"

/-- The secrets of all credentials in the order in which they were made; a scrubbed one is gone. -/
structure Keyring where
  secrets : List (Option (List UInt8)) := []
  deriving DecidableEq, Repr

namespace Keyring

/-- Makes a new credential. -/
def create (r : Keyring) (bytes : List UInt8) : Credential × Keyring :=
  (⟨r.secrets.length⟩, ⟨r.secrets ++ [some bytes]⟩)

/-- The bytes of a credential, unless they are gone. -/
def bytes? (r : Keyring) (c : Credential) : Option (List UInt8) := (r.secrets[c.id]?).join

/-- A credential of which nothing is left, or that was never made. -/
def isScrubbed (r : Keyring) (c : Credential) : Bool := (r.bytes? c).isNone

/-- The number of bytes a credential still has. -/
def size (r : Keyring) (c : Credential) : Nat := ((r.bytes? c).getD []).length

/-- Takes the bytes of a credential away. -/
def scrub (r : Keyring) (c : Credential) : Keyring := ⟨r.secrets.set c.id none⟩

/-- Scrubbing takes the bytes of one credential and of no other. -/
theorem bytes?_scrub (r : Keyring) (c d : Credential) :
    (r.scrub c).bytes? d = if d = c then none else r.bytes? d := by
  obtain ⟨c⟩ := c
  obtain ⟨d⟩ := d
  simp only [scrub, bytes?, List.getElem?_set, Credential.mk.injEq]
  by_cases h : c = d
  · subst h
    by_cases hl : c < r.secrets.length <;> simp [hl]
  · simp [h, Ne.symm h]

/-- So exactly this credential becomes scrubbed, and those that were so stay so. -/
theorem isScrubbed_scrub (r : Keyring) (c d : Credential) :
    (r.scrub c).isScrubbed d = (d == c || r.isScrubbed d) := by
  simp only [isScrubbed, bytes?_scrub]
  by_cases h : d = c <;> simp [h]

end Keyring

end TextVault
