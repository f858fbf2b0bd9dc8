import TextVault.Labelled

/-
  What is shown for a message.

  Problem: a message that is no plain text is shown as a fixed text, and a renderer has to know which
  rule chose the text so that it can set it apart from what people wrote.

  Program: `Display` names the rules; `FixedTexts` holds a text for each but the body itself.

  Spec: `FixedTexts.get?` has a text for every rule but `body`; the rules that show what a person wrote,
  or the lack of it, are the only ones without emphasis.
-/
namespace TextVault.Message

/-- The rule that chose the text shown. -/
inductive Display where
  | processedKeyExchange
  | staleKeyExchange
  | outgoingKeyExchange
  | incomingKeyExchange
  /-- Any key exchange, in the list of threads. -/
  | keyExchange
  | failedDecrypt
  | decrypting
  | noSession
  | encrypted
  | noSubject
  | body
  deriving DecidableEq, Repr

/-- Texts of the client itself, which renderers set apart. -/
def Display.isEmphasized : Display → Bool
  | body | noSubject => false
  | _ => true

instance : Labelled Display where
  all := [.processedKeyExchange, .staleKeyExchange, .outgoingKeyExchange, .incomingKeyExchange,
    .keyExchange, .failedDecrypt, .decrypting, .noSession, .encrypted, .noSubject, .body]
  label
    | .processedKeyExchange => "ProcessedKeyExchange"
    | .staleKeyExchange => "StaleKeyExchange"
    | .outgoingKeyExchange => "OutgoingKeyExchange"
    | .incomingKeyExchange => "IncomingKeyExchange"
    | .keyExchange => "KeyExchange"
    | .failedDecrypt => "FailedDecrypt"
    | .decrypting => "Decrypting"
    | .noSession => "NoRemoteSession"
    | .encrypted => "Encrypted"
    | .noSubject => "NoSubject"
    | .body => "Body"

/-- The texts shown in place of a body. -/
structure FixedTexts where
  processedKeyExchange : String := "Received and processed key exchange message."
  staleKeyExchange : String := "Error, received stale key exchange message."
  outgoingKeyExchange : String := "Key exchange message..."
  incomingKeyExchange : String := "Received key exchange message, tap to process."
  keyExchange : String := "Key exchange message..."
  failedDecrypt : String := "Bad encrypted message..."
  decrypting : String := "Decrypting, please wait..."
  noSession : String := "Message encrypted for non-existing session..."
  encrypted : String := "Encrypted message"
  noSubject : String := "(No subject)"
  deriving DecidableEq, Repr

/-- The text of a rule; a body is shown as it is. -/
def FixedTexts.get? (t : FixedTexts) : Display → Option String
  | .processedKeyExchange => some t.processedKeyExchange
  | .staleKeyExchange => some t.staleKeyExchange
  | .outgoingKeyExchange => some t.outgoingKeyExchange
  | .incomingKeyExchange => some t.incomingKeyExchange
  | .keyExchange => some t.keyExchange
  | .failedDecrypt => some t.failedDecrypt
  | .decrypting => some t.decrypting
  | .noSession => some t.noSession
  | .encrypted => some t.encrypted
  | .noSubject => some t.noSubject
  | .body => none

/-- Only the body itself has no fixed text; every other rule replaces it by one. -/
theorem FixedTexts.get?_eq_none_iff (t : FixedTexts) (d : Display) :
    t.get? d = none ↔ d = .body := by
  cases d <;> simp [get?]

end TextVault.Message
