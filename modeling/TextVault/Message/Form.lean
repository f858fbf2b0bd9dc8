import TextVault.Json.Codec
import TextVault.Message.Record

/-
  The JSON forms of messages.

  Program: a record is written with its fields in the order given here; a missing field is an error
  but in the scale and the texts, which have defaults. A mailbox with no name of its own is written
  with its value.

  Spec: each form reads back what it writes.
-/
namespace TextVault.Message

open Json

instance : Codec TypeMask where
  toJson m := toJson m.bits
  reader := Codec.reader UInt64
  ofJson? j := (ofJson? j).map TypeMask.mk

/-! ## Mailboxes -/

/-- The mailboxes with a name of their own. -/
def Mailbox.named : List (String × Mailbox) :=
  [("Inbox", .inbox), ("Outbox", .outbox), ("Sending", .sending), ("Sent", .sent),
    ("SentFailed", .sentFailed)]

/-- The label of a mailbox that carries its value. -/
def Mailbox.unknownLabel : String := "Unknown"

/-- A mailbox is written as its name. One without a name of its own is an object with its value under a common label,
as an enumeration with data is written. -/
def Mailbox.toForm : Mailbox → Json
  | .inbox => .text "Inbox"
  | .outbox => .text "Outbox"
  | .sending => .text "Sending"
  | .sent => .text "Sent"
  | .sentFailed => .text "SentFailed"
  | .unknown value => .record [(unknownLabel, toJson value)]

/-- Only the label of an unknown mailbox brings a value along. -/
def Mailbox.variants : List Reader.Variant :=
  Mailbox.named.map (fun m => { label := m.1 }) ++
    [{ label := unknownLabel, payload := some (Codec.reader UInt8) }]

/-- The mailbox of either form. The reader has already refused every other label. -/
def Mailbox.ofForm? : Json → Option Mailbox
  | .text name => named.lookup name
  | j => (field? j unknownLabel).map Mailbox.unknown

instance : Codec Mailbox where
  toJson := Mailbox.toForm
  reader := .choice Mailbox.variants
  ofJson? := Mailbox.ofForm?

/-! ## Classification -/

instance : Codec Decoded where
  toJson d := .record [("base", toJson d.mailbox), ("direction", toJson d.direction),
    ("security", toJson d.transit), ("key_exchange", toJson d.keyExchange),
    ("decrypt", toJson d.decryption), ("at_rest", toJson d.atRest)]
  reader := .record [required Mailbox "base", required Direction "direction",
    required Transit "security", required KeyExchange "key_exchange", required Decryption "decrypt",
    required AtRest "at_rest"]
  ofJson? j := do
    return {
      mailbox := ← field? j "base"
      direction := ← field? j "direction"
      transit := ← field? j "security"
      keyExchange := ← field? j "key_exchange"
      decryption := ← field? j "decrypt"
      atRest := ← field? j "at_rest" }

instance : Codec Flags where
  toJson f := .record [("is_outgoing", toJson f.isOutgoing), ("is_pending", toJson f.isPending),
    ("is_key_exchange", toJson f.isKeyExchange),
    ("is_processed_key_exchange", toJson f.isProcessedKeyExchange),
    ("is_stale_key_exchange", toJson f.isStaleKeyExchange),
    ("is_corrupted_key_exchange", toJson f.isCorruptedKeyExchange),
    ("is_failed_decrypt", toJson f.isFailedDecrypt),
    ("is_decrypt_in_progress", toJson f.isDecryptInProgress),
    ("is_no_remote_session", toJson f.isNoSession), ("is_secure", toJson f.isSecure),
    ("is_failed", toJson f.isFailed)]
  reader := .record [required Bool "is_outgoing", required Bool "is_pending",
    required Bool "is_key_exchange", required Bool "is_processed_key_exchange",
    required Bool "is_stale_key_exchange", required Bool "is_corrupted_key_exchange",
    required Bool "is_failed_decrypt", required Bool "is_decrypt_in_progress",
    required Bool "is_no_remote_session", required Bool "is_secure", required Bool "is_failed"]
  ofJson? j := do
    return {
      isOutgoing := ← field? j "is_outgoing"
      isPending := ← field? j "is_pending"
      isKeyExchange := ← field? j "is_key_exchange"
      isProcessedKeyExchange := ← field? j "is_processed_key_exchange"
      isStaleKeyExchange := ← field? j "is_stale_key_exchange"
      isCorruptedKeyExchange := ← field? j "is_corrupted_key_exchange"
      isFailedDecrypt := ← field? j "is_failed_decrypt"
      isDecryptInProgress := ← field? j "is_decrypt_in_progress"
      isNoSession := ← field? j "is_no_remote_session"
      isSecure := ← field? j "is_secure"
      isFailed := ← field? j "is_failed" }

instance : Codec Classification where
  toJson c := .record [("decoded", toJson c.decoded), ("flags", toJson c.flags),
    ("delivery", toJson c.delivery), ("branch", toJson c.display), ("text", toJson c.text)]
  reader := .record [required Decoded "decoded", required Flags "flags",
    required Delivery "delivery", required Display "branch", required String "text"]
  ofJson? j := do
    return {
      decoded := ← field? j "decoded"
      flags := ← field? j "flags"
      delivery := ← field? j "delivery"
      display := ← field? j "branch"
      text := ← field? j "text" }

instance : Codec Summary where
  toJson s := .record [("branch", toJson s.display), ("text", toJson s.text)]
  reader := .record [required Display "branch", required String "text"]
  ofJson? j := do
    return { display := ← field? j "branch", text := ← field? j "text" }

/-! ## The classifier's settings -/

instance : Codec StatusScale where
  toJson s := .record [("none", toJson s.unreported), ("pending", toJson s.pending),
    ("failed", toJson s.failed)]
  reader := .record [optional Int32 "none", optional Int32 "pending", optional Int32 "failed"]
  ofJson? j := do
    let d : StatusScale := {}
    return {
      unreported := ← fieldD j "none" d.unreported
      pending := ← fieldD j "pending" d.pending
      failed := ← fieldD j "failed" d.failed }

instance : Codec FixedTexts where
  toJson t := .record [("processed_key_exchange", toJson t.processedKeyExchange),
    ("stale_key_exchange", toJson t.staleKeyExchange),
    ("outgoing_key_exchange", toJson t.outgoingKeyExchange),
    ("incoming_key_exchange", toJson t.incomingKeyExchange),
    ("key_exchange", toJson t.keyExchange), ("failed_decrypt", toJson t.failedDecrypt),
    ("decrypting", toJson t.decrypting), ("no_remote_session", toJson t.noSession),
    ("encrypted", toJson t.encrypted), ("no_subject", toJson t.noSubject)]
  reader := .record [optional String "processed_key_exchange", optional String "stale_key_exchange",
    optional String "outgoing_key_exchange", optional String "incoming_key_exchange",
    optional String "key_exchange", optional String "failed_decrypt", optional String "decrypting",
    optional String "no_remote_session", optional String "encrypted", optional String "no_subject"]
  ofJson? j := do
    let d : FixedTexts := {}
    return {
      processedKeyExchange := ← fieldD j "processed_key_exchange" d.processedKeyExchange
      staleKeyExchange := ← fieldD j "stale_key_exchange" d.staleKeyExchange
      outgoingKeyExchange := ← fieldD j "outgoing_key_exchange" d.outgoingKeyExchange
      incomingKeyExchange := ← fieldD j "incoming_key_exchange" d.incomingKeyExchange
      keyExchange := ← fieldD j "key_exchange" d.keyExchange
      failedDecrypt := ← fieldD j "failed_decrypt" d.failedDecrypt
      decrypting := ← fieldD j "decrypting" d.decrypting
      noSession := ← fieldD j "no_remote_session" d.noSession
      encrypted := ← fieldD j "encrypted" d.encrypted
      noSubject := ← fieldD j "no_subject" d.noSubject }

/-! ## Records -/

instance : Codec RecordKey where
  toJson k := .record [("transport", toJson k.transport), ("id", toJson k.id)]
  reader := .record [required Transport "transport", required Int64 "id"]
  ofJson? j := do
    return { transport := ← field? j "transport", id := ← field? j "id" }

instance : Codec Body where
  toJson b := .record [("text", toJson b.text), ("plaintext", toJson b.plaintext)]
  reader := .record [required String "text", required Bool "plaintext"]
  ofJson? j := do
    return { text := ← field? j "text", plaintext := ← field? j "plaintext" }

end TextVault.Message
