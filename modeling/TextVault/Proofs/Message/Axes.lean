import TextVault.Message.Classifier
import TextVault.Proofs.Message.Mask

/-
  The axes of the type word.

  Problem: five concerns are read off one word, each by tests of its own in an order of its own; one bit is read
  by two of them, and most bits by none.

  Program: two words agree on a group of bits (`AgreeOn`) if they have the same of them. `meaningfulBits` are
  those that some concern reads.

  Spec: words that agree on a group answer alike for every part of it (`AgreeOn.has_eq`), so each concern goes
  by its own bits whatever the others are (`AgreeOn.mailbox_eq` and its like), the whole word by the meaningful
  ones (`AgreeOn.decode_eq`), and so does all that is shown for a message (`axes_apart`).
-/
namespace TextVault.Message

namespace TypeMask

/-- Two words have the same of the given bits. -/
def AgreeOn (bits : UInt64) (m other : TypeMask) : Prop := m.bits &&& bits = other.bits &&& bits

instance (bits : UInt64) (m other : TypeMask) : Decidable (AgreeOn bits m other) :=
  inferInstanceAs (Decidable (m.bits &&& bits = other.bits &&& bits))

/-- The bits that some concern reads. -/
def meaningfulBits : UInt64 := 0xF880F8FF

/-- The three bits for a body that is not decrypted are the only ones that keep it from being ready. -/
theorem undecryptedBits_eq : undecryptedBits = 0x58000000 := by decide

/-- The word with none but the given bits. -/
def restrict (m : TypeMask) (bits : UInt64) : TypeMask := ⟨m.bits &&& bits⟩

/-- A word agrees with what is left of it on the bits that are left, so the other bits may be anything. -/
theorem agreeOn_restrict (m : TypeMask) (bits : UInt64) : AgreeOn bits (m.restrict bits) m := by
  show m.bits &&& bits &&& bits = m.bits &&& bits
  rw [UInt64.and_assoc, UInt64.and_self]

namespace AgreeOn

variable {bits part : UInt64} {m other : TypeMask}

/-- **Words that agree on a group of bits agree on each part of it.** -/
theorem mono (h : AgreeOn bits m other) (hpart : bits &&& part = part) : AgreeOn part m other := by
  show m.bits &&& part = other.bits &&& part
  rw [← hpart, ← UInt64.and_assoc, ← UInt64.and_assoc]
  exact congrArg (· &&& part) h

/-- **A test reads bits of its own group only**, so words that agree on the group pass the same tests. -/
theorem has_eq (h : AgreeOn bits m other) (hpart : bits &&& part = part) :
    m.has part = other.has part := by
  have hagree : m.bits &&& part = other.bits &&& part := h.mono hpart
  rw [has, has, hagree]

/-! ## The concerns -/

/-- The mailbox goes by the lowest byte. -/
theorem mailbox_eq (h : AgreeOn 0xFF m other) : m.mailbox = other.mailbox := by
  have hagree : m.bits &&& 0xFF = other.bits &&& 0xFF := h
  rw [mailbox, mailbox, hagree]

theorem transit_eq (h : AgreeOn 0x800000 m other) : m.transit = other.transit := by
  rw [transit, transit, h.has_eq (by decide)]

/-- The key exchange goes by five bits in a row, all above the mailbox. -/
theorem keyExchange_eq (h : AgreeOn 0xF800 m other) : m.keyExchange = other.keyExchange := by
  have hthere : m.has 0x8000 = other.has 0x8000 := h.has_eq (by decide)
  have hprocessed : m.has 0x2000 = other.has 0x2000 := h.has_eq (by decide)
  have hstale : m.has 0x4000 = other.has 0x4000 := h.has_eq (by decide)
  have hcorrupted : m.has 0x1000 = other.has 0x1000 := h.has_eq (by decide)
  have hversion : m.has 0x800 = other.has 0x800 := h.has_eq (by decide)
  rw [keyExchange, keyExchange, hthere, hprocessed, hstale, hcorrupted, hversion]

/-- Whether a body is decrypted goes by three bits, of which it shares one with how the body is stored. -/
theorem decryption_eq (h : AgreeOn 0x58000000 m other) : m.decryption = other.decryption := by
  have hfailed : m.has 0x10000000 = other.has 0x10000000 := h.has_eq (by decide)
  have hasymmetric : m.has 0x40000000 = other.has 0x40000000 := h.has_eq (by decide)
  have hsession : m.has 0x8000000 = other.has 0x8000000 := h.has_eq (by decide)
  rw [decryption, decryption, hfailed, hasymmetric, hsession]

/-- How the body is stored goes by the three highest bits, of which the middle one is shared. -/
theorem atRest_eq (h : AgreeOn 0xE0000000 m other) : m.atRest = other.atRest := by
  have hsymmetric : m.has 0x80000000 = other.has 0x80000000 := h.has_eq (by decide)
  have hasymmetric : m.has 0x40000000 = other.has 0x40000000 := h.has_eq (by decide)
  have hremote : m.has 0x20000000 = other.has 0x20000000 := h.has_eq (by decide)
  rw [atRest, atRest, hsymmetric, hasymmetric, hremote]

/-- **No other bit means anything.** -/
theorem decode_eq (h : AgreeOn meaningfulBits m other) : m.decode = other.decode := by
  have hmailbox : m.mailbox = other.mailbox := (h.mono (by decide)).mailbox_eq
  have htransit : m.transit = other.transit := (h.mono (by decide)).transit_eq
  have hkeyExchange : m.keyExchange = other.keyExchange := (h.mono (by decide)).keyExchange_eq
  have hdecryption : m.decryption = other.decryption := (h.mono (by decide)).decryption_eq
  have hatRest : m.atRest = other.atRest := (h.mono (by decide)).atRest_eq
  rw [decode, decode, hmailbox, htransit, hkeyExchange, hdecryption, hatRest]

end AgreeOn

end TypeMask

/-! ## Flags that exclude each other -/

namespace Flags

variable (d : Decoded) (delivery : Delivery)

/-- At most one thing is said of how far a key exchange has come, and only if there is one. -/
theorem keyExchange_exclusive :
    let f := Flags.of d delivery
    [f.isProcessedKeyExchange, f.isStaleKeyExchange, f.isCorruptedKeyExchange].count true ≤ 1 ∧
    ((f.isProcessedKeyExchange || f.isStaleKeyExchange || f.isCorruptedKeyExchange) = true →
      f.isKeyExchange = true) := by
  intro f
  show [d.keyExchange == .processed, d.keyExchange == .stale, d.keyExchange == .corrupted].count true ≤ 1 ∧
    ((d.keyExchange == .processed || d.keyExchange == .stale || d.keyExchange == .corrupted) = true →
      d.keyExchange.isPresent = true)
  cases d.keyExchange <;> decide

/-- At most one thing is said of a body that is not ready, and something is of every such body. -/
theorem decryption_exclusive :
    let f := Flags.of d delivery
    [f.isFailedDecrypt, f.isDecryptInProgress, f.isNoSession].count true ≤ 1 ∧
    ((f.isFailedDecrypt || f.isDecryptInProgress || f.isNoSession) = true ↔ d.decryption ≠ .ready) := by
  intro f
  show [d.decryption == .failed, d.decryption == .inProgress, d.decryption == .noSession].count true ≤ 1 ∧
    ((d.decryption == .failed || d.decryption == .inProgress || d.decryption == .noSession) = true ↔
      d.decryption ≠ .ready)
  cases d.decryption <;> decide

/-- The delivery is told of by one flag. -/
theorem of_delivery (delivery' : Delivery) :
    ∃ failed, Flags.of d delivery' = { Flags.of d delivery with isFailed := failed } := ⟨_, rfl⟩

/-- The conversation's rule does not go by that flag. -/
@[simp] theorem display_isFailed (f : Flags) (failed plaintext : Bool) :
    Flags.display { f with isFailed := failed } plaintext = f.display plaintext := rfl

end Flags

/-! ## What is shown -/

namespace Classifier

variable (c : Classifier) {m other : TypeMask} (status : Int32) (plaintext : Bool) (body : String)

/-- Nothing that a conversation shows is read off the word but through its decoding. -/
theorem classify_eq_of_decode (h : m.decode = other.decode) :
    c.classify m status plaintext body = c.classify other status plaintext body := by
  rw [classify, classify, h]

/-- Nor is anything in the list of threads. -/
theorem summarize_eq_of_decode (h : m.decode = other.decode) :
    c.summarize m plaintext body = c.summarize other plaintext body := by
  rw [summarize, summarize, h]

/-- The transport's status tells of the delivery and of failure alone. -/
theorem classify_status (m : TypeMask) (status status' : Int32) :
    let shown := c.classify m status plaintext body
    ∃ failed, c.classify m status' plaintext body =
      { shown with
        delivery := c.scale.delivery status', flags := { shown.flags with isFailed := failed } } := by
  intro shown
  obtain ⟨failed, hflags⟩ := Flags.of_delivery m.decode (c.scale.delivery status) (c.scale.delivery status')
  refine ⟨failed, ?_⟩
  -- The rule and the tag go by the flags, and neither by the one that differs.
  rw [classify, hflags]
  simp only [Flags.display_isFailed]
  rfl

/-- **The axes of the type word do not touch, and no other bit means anything.**

Without its meaningless bits a word is taken apart, classified and summarized as with them. Words that agree on
the bits of an axis agree on that axis, whatever their other bits are: the mailbox with the direction, whether
the message is on its way out and whether its mailbox is the failed one; the transit; the key exchange; the
decryption, and how the body is stored, which share a bit.

Of what the flags say of a key exchange at most one holds, and only if there is one, as one bit tells. Of what
they say of a body that is not ready at most one holds, and one does exactly if one of three bits is set. The
transport's status tells of the delivery and of failure, and of nothing else. -/
theorem axes_apart (m other : TypeMask) (status status' : Int32) :
    let known := m.restrict 0xF880F8FF
    let shown := c.classify m status plaintext body
    let f := shown.flags
    (known.decode = m.decode ∧ c.classify known status plaintext body = shown ∧
      c.summarize known plaintext body = c.summarize m plaintext body) ∧
    ((m.AgreeOn 0xFF other →
        m.decode.mailbox = other.decode.mailbox ∧ m.decode.direction = other.decode.direction ∧
        m.decode.mailbox.isPending = other.decode.mailbox.isPending ∧
        m.decode.mailbox.isFailed = other.decode.mailbox.isFailed) ∧
      (m.AgreeOn 0x800000 other → m.decode.transit = other.decode.transit) ∧
      (m.AgreeOn 0xF800 other → m.decode.keyExchange = other.decode.keyExchange) ∧
      (m.AgreeOn 0x58000000 other → m.decode.decryption = other.decode.decryption) ∧
      (m.AgreeOn 0xE0000000 other → m.decode.atRest = other.decode.atRest)) ∧
    ([f.isProcessedKeyExchange, f.isStaleKeyExchange, f.isCorruptedKeyExchange].count true ≤ 1 ∧
      ((f.isProcessedKeyExchange || f.isStaleKeyExchange || f.isCorruptedKeyExchange) = true →
        f.isKeyExchange = true) ∧
      (f.isKeyExchange = true ↔ m.bits &&& 0x8000 ≠ 0)) ∧
    ([f.isFailedDecrypt, f.isDecryptInProgress, f.isNoSession].count true ≤ 1 ∧
      ((f.isFailedDecrypt || f.isDecryptInProgress || f.isNoSession) = true ↔
        m.bits &&& 0x58000000 ≠ 0)) ∧
    ∃ failed, c.classify m status' plaintext body =
      { shown with delivery := c.scale.delivery status', flags := { f with isFailed := failed } } := by
  intro known shown f
  have hknown : known.decode = m.decode := (TypeMask.agreeOn_restrict m 0xF880F8FF).decode_eq
  obtain ⟨hstage, hexchange⟩ := Flags.keyExchange_exclusive m.decode (c.scale.delivery status)
  obtain ⟨hbody, hunready⟩ := Flags.decryption_exclusive m.decode (c.scale.delivery status)
  refine ⟨⟨hknown, c.classify_eq_of_decode status plaintext body hknown,
      c.summarize_eq_of_decode plaintext body hknown⟩,
    ⟨fun h => ?mailbox, fun h => h.transit_eq, fun h => h.keyExchange_eq, fun h => h.decryption_eq,
      fun h => h.atRest_eq⟩,
    ⟨hstage, hexchange, ?exchange⟩, ⟨hbody, ?unready⟩,
    c.classify_status plaintext body m status status'⟩
  case mailbox =>
    have hmailbox : m.decode.mailbox = other.decode.mailbox := h.mailbox_eq
    exact ⟨hmailbox, congrArg Mailbox.direction hmailbox, congrArg Mailbox.isPending hmailbox,
      congrArg Mailbox.isFailed hmailbox⟩
  case exchange =>
    show m.keyExchange.isPresent = true ↔ _
    rw [TypeMask.isPresent_keyExchange, TypeMask.has_eq_true_iff]
  case unready =>
    -- Each of the three flags stands for one way of not being ready.
    calc (f.isFailedDecrypt || f.isDecryptInProgress || f.isNoSession) = true
        ↔ m.decryption ≠ .ready := hunready
      _ ↔ m.has TypeMask.undecryptedBits = true := by
        rw [Ne, TypeMask.decryption_eq_ready_iff, Bool.not_eq_false]
      _ ↔ m.bits &&& 0x58000000 ≠ 0 := by
        rw [TypeMask.undecryptedBits_eq, TypeMask.has_eq_true_iff]

/-- A word and the same word with meaningless bits set agree on every axis. -/
theorem axes_apart_of_meaningless :
    let m : TypeMask := ⟨0xD880B014⟩
    let other : TypeMask := ⟨0x1DFFFB714⟩
    m ≠ other ∧ (m.AgreeOn 0xFF other ∧ m.decode.mailbox = other.decode.mailbox) ∧
      (m.AgreeOn 0x800000 other ∧ m.decode.transit = other.decode.transit) ∧
      (m.AgreeOn 0xF800 other ∧ m.decode.keyExchange = other.decode.keyExchange) ∧
      (m.AgreeOn 0x58000000 other ∧ m.decode.decryption = other.decode.decryption) ∧
      (m.AgreeOn 0xE0000000 other ∧ m.decode.atRest = other.decode.atRest) := by
  intro m other
  obtain ⟨-, ⟨hmailbox, htransit, hkeyExchange, hdecryption, hatRest⟩, -⟩ :=
    axes_apart {} true "hi" m other 0 0
  exact ⟨by decide, ⟨by decide, (hmailbox (by decide)).1⟩, ⟨by decide, htransit (by decide)⟩,
    ⟨by decide, hkeyExchange (by decide)⟩, ⟨by decide, hdecryption (by decide)⟩,
    ⟨by decide, hatRest (by decide)⟩⟩

end Classifier

end TextVault.Message
