import TextVault.Message.Delivery
import TextVault.Message.Display
import TextVault.Message.Mask
import TextVault.Message.Tag

/-
  Classification of a stored message.

  Problem: from the type word, the transport's status and the body, decide what a conversation shows
  for a message and what the list of threads shows for it. Ciphertext must never be shown.

  Program: `Classifier.classify` decodes the word, reads the delivery and draws the flags; the
  conversation's rule then follows from the flags alone. `Classifier.summarize` is the thread list's
  view, with an order of its own: there a body still being decrypted comes before any key exchange,
  and a blank body has no subject.

  Spec: only the rule `body` shows the body, in a conversation without the tag of an outgoing message.
-/
namespace TextVault.Message

/-- The state of a message, question by question. -/
structure Flags where
  isOutgoing : Bool
  isPending : Bool
  isKeyExchange : Bool
  isProcessedKeyExchange : Bool
  isStaleKeyExchange : Bool
  isCorruptedKeyExchange : Bool
  isFailedDecrypt : Bool
  isDecryptInProgress : Bool
  isNoSession : Bool
  isSecure : Bool
  isFailed : Bool
  deriving DecidableEq, Repr

/-- The answers that the decoded word and the delivery give. A message has failed if it could not be sent or the
network says so; everything else follows from the word alone. -/
def Flags.of (decoded : Decoded) (delivery : Delivery) : Flags where
  isOutgoing := decoded.direction == .outgoing
  isPending := decoded.mailbox.isPending
  isKeyExchange := decoded.keyExchange.isPresent
  isProcessedKeyExchange := decoded.keyExchange == .processed
  isStaleKeyExchange := decoded.keyExchange == .stale
  isCorruptedKeyExchange := decoded.keyExchange == .corrupted
  isFailedDecrypt := decoded.decryption == .failed
  isDecryptInProgress := decoded.decryption == .inProgress
  isNoSession := decoded.decryption == .noSession
  isSecure := decoded.transit == .secureSession
  isFailed := decoded.mailbox.isFailed || delivery == .failed

/-! ## Rules -/

/-- The rule for a message in its conversation; the first that applies wins. -/
def Flags.display (f : Flags) (plaintext : Bool) : Display :=
  if f.isProcessedKeyExchange then .processedKeyExchange
  else if f.isStaleKeyExchange then .staleKeyExchange
  -- Any other key exchange shows who began it.
  else if f.isKeyExchange && f.isOutgoing then .outgoingKeyExchange
  else if f.isKeyExchange then .incomingKeyExchange
  else if f.isFailedDecrypt then .failedDecrypt
  else if f.isDecryptInProgress then .decrypting
  else if f.isNoSession then .noSession
  else if !plaintext then .encrypted
  else .body

/-- The rule for a message in the list of threads; the first that applies wins. -/
def Decoded.summaryDisplay (d : Decoded) (plaintext : Bool) (body : String) : Display :=
  if d.decryption = .inProgress then .decrypting
  else if d.keyExchange.isPresent then .keyExchange
  else if d.decryption = .failed then .failedDecrypt
  else if d.decryption = .noSession then .noSession
  else if !plaintext then .encrypted
  else if Text.allBlank body.toList then .noSubject
  else .body

/-! ## Results -/

/-- All that is known of one message in a conversation. -/
structure Classification where
  decoded : Decoded
  flags : Flags
  delivery : Delivery
  display : Display
  text : String
  deriving DecidableEq, Repr

/-- What the list of threads shows for one message. -/
structure Summary where
  display : Display
  text : String
  deriving DecidableEq, Repr

/-- A status scale and the fixed texts. -/
structure Classifier where
  scale : StatusScale := {}
  texts : FixedTexts := {}
  deriving DecidableEq, Repr

namespace Classifier

/-- What a conversation shows for a message, with everything that it was concluded from. -/
def classify (c : Classifier) (mask : TypeMask) (status : Int32) (plaintext : Bool)
    (body : String) : Classification :=
  let decoded := mask.decode
  let delivery := c.scale.delivery status
  let flags := Flags.of decoded delivery
  let display := flags.display plaintext
  let text := (c.texts.get? display).getD (if flags.isOutgoing then stripTag body else body)
  { decoded, flags, delivery, display, text }

/-- What the list of threads shows for a message. It does not ask for the delivery, since nothing it shows depends on
it. -/
def summarize (c : Classifier) (mask : TypeMask) (plaintext : Bool) (body : String) : Summary :=
  let display := mask.decode.summaryDisplay plaintext body
  { display, text := (c.texts.get? display).getD body }

end Classifier

example : (Classifier.classify {} ⟨0x8014⟩ 64 true "x").text =
    "Received key exchange message, tap to process." := by decide +kernel

end TextVault.Message
