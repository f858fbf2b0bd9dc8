import TextVault.Message.Mask

/-
  Groups of bits in the type word.

  Problem: a concern of the type word is read bit by bit, each test shadowing the next, while what is said
  of a message asks for any bit of a group at once.

  Program: `TypeMask.has` tests a group of bits as it tests one.

  Spec: a group has a bit set exactly if one of its parts has (`has_or`). One bit tells
  whether there is a key exchange at all (`isPresent_keyExchange`), and the body is ready exactly if three
  others are clear (`decryption_eq_ready_iff`).
-/
namespace TextVault.Message.TypeMask

/-- The bits of a decryption that failed, is under way, or found no session. -/
def undecryptedBits : UInt64 := 0x10000000 ||| 0x40000000 ||| 0x8000000

/-- Masking distributes over a union of bits, which is how a test for several bits is taken apart. -/
theorem and_or_left (x a b : UInt64) : x &&& (a ||| b) = x &&& a ||| x &&& b := by
  apply UInt64.eq_of_toBitVec_eq
  rw [UInt64.toBitVec_and, UInt64.toBitVec_or, UInt64.toBitVec_or, UInt64.toBitVec_and,
    UInt64.toBitVec_and]
  exact BitVec.and_or_distrib_left

variable (m : TypeMask)

/-- Some bit of a group is set exactly if the word and the group have one in common. -/
theorem has_eq_true_iff (bits : UInt64) : m.has bits = true ↔ m.bits &&& bits ≠ 0 := bne_iff_ne

/-- **A group of bits is asked for part by part.** -/
theorem has_or (a b : UInt64) : m.has (a ||| b) = (m.has a || m.has b) := by
  rw [Bool.eq_iff_iff, Bool.or_eq_true, has_eq_true_iff, has_eq_true_iff, has_eq_true_iff, and_or_left]
  constructor
  · intro h
    by_cases ha : m.bits &&& a = 0
    · right
      intro hb
      exact h (UInt64.or_eq_zero_iff.mpr ⟨ha, hb⟩)
    · exact Or.inl ha
  · intro h hor
    -- A union without a bit of the mask is a union of two such.
    obtain ⟨ha, hb⟩ := UInt64.or_eq_zero_iff.mp hor
    rcases h with h | h
    · exact h ha
    · exact h hb

/-- One bit alone marks a key exchange; the other four only say how far it has come. -/
theorem isPresent_keyExchange : m.keyExchange.isPresent = m.has 0x8000 := by
  unfold keyExchange
  cases m.has 0x8000 with
  | false => rfl
  | true =>
    -- Whichever of the other bits tells how far the exchange has come, there is one.
    cases m.has 0x2000 <;> cases m.has 0x4000 <;> cases m.has 0x1000 <;> cases m.has 0x800 <;> rfl

/-- A body is ready if none of the three bits is set that say otherwise. -/
theorem decryption_eq_ready_iff : m.decryption = .ready ↔ m.has undecryptedBits = false := by
  unfold undecryptedBits
  rw [has_or, has_or, decryption]
  cases m.has 0x10000000 with
  | true => simp
  | false =>
    cases m.has 0x40000000 with
    | true => simp
    | false =>
      cases m.has 0x8000000 with
      | true => simp
      | false => simp

end TextVault.Message.TypeMask
