/-
  UTF-8, with the place of the first fault.

  Problem: input arrives as bytes, and a line that is not UTF-8 has to be refused with the place
  where it stops being so.

  Program: `decode` reads characters one by one. A lead byte fixes how many bytes follow and which
  range the first of them lies in; the first byte outside its range ends the reading.

  Spec: `Utf8Fault.index` is the number of bytes read as whole characters, and
  `Utf8Fault.length` the number of bytes of the broken character, or nothing when the text ends
  inside it.
-/
namespace TextVault.Text

/-- Where a byte sequence stops being UTF-8. -/
structure Utf8Fault where
  /-- The bytes before the broken character. -/
  index : Nat
  /-- How many bytes of the broken character are of no use; nothing if the text only ends too early. -/
  length : Option Nat
  deriving DecidableEq, Repr

namespace Utf8Fault

/-- Where the text stops being UTF-8, and how many bytes are at fault unless it only ends too early. -/
def message (fault : Utf8Fault) : String :=
  match fault.length with
  | some n => s!"invalid utf-8 sequence of {n} bytes from index {fault.index}"
  | none => s!"incomplete utf-8 byte sequence from index {fault.index}"

end Utf8Fault

/-! ## Bytes of one character -/

/-- A byte in a range, both ends included. -/
def within (low high : UInt8) (b : UInt8) : Bool := low ≤ b && b ≤ high

/-- The six low bits of a byte that continues a character. -/
def tailBits (b : UInt8) : Nat := b.toNat % 0x40

/-- What the first byte of a character says: the character itself, or how many bytes follow, the
range of the first of them and the bits it gives. -/
inductive Lead where
  | single (c : Char)
  | more (tails : Nat) (low high : UInt8) (bits : Nat)
  | bad

/-- The first byte of a character narrows the second one down where a character could otherwise be written in two
ways, or would be a surrogate or beyond the last one. -/
def lead (b : UInt8) : Lead :=
  let n := b.toNat
  if n < 0x80 then .single (Char.ofNat n)
  -- A tail out of place, or a lead of a form that is longer than it has to be.
  else if n < 0xC2 then .bad
  else if n < 0xE0 then .more 1 0x80 0xBF (n % 0x20)
  else if n = 0xE0 then .more 2 0xA0 0xBF (n % 0x10)
  else if n = 0xED then .more 2 0x80 0x9F (n % 0x10)
  else if n < 0xF0 then .more 2 0x80 0xBF (n % 0x10)
  else if n = 0xF0 then .more 3 0x90 0xBF (n % 0x08)
  else if n < 0xF4 then .more 3 0x80 0xBF (n % 0x08)
  else if n = 0xF4 then .more 3 0x80 0x8F (n % 0x08)
  else .bad

/-! ## Whole texts -/

/-- Where the reading stands inside a character: the bytes of it already read, how many are still to
come, the range of the next one and the bits so far. -/
structure Partial where
  read : Nat
  owed : Nat
  low : UInt8
  high : UInt8
  bits : Nat

/-- Reads on after `index` bytes of whole characters. -/
def decodeFrom (index : Nat) : Option Partial → List UInt8 → Except Utf8Fault (List Char)
  | none, [] => .ok []
  -- The text ends within a character, so no length of the fault is known.
  | some _, [] => .error ⟨index, none⟩
  | none, b :: bs =>
    match lead b with
    | .single c => (decodeFrom (index + 1) none bs).map (c :: ·)
    | .more tails low high bits => decodeFrom index (some ⟨1, tails, low, high, bits⟩) bs
    | .bad => .error ⟨index, some 1⟩
  | some p, b :: bs =>
    if within p.low p.high b then
      let bits := p.bits * 0x40 + tailBits b
      if p.owed ≤ 1 then
        (decodeFrom (index + p.read + 1) none bs).map (Char.ofNat bits :: ·)
      else decodeFrom index (some ⟨p.read + 1, p.owed - 1, 0x80, 0xBF, bits⟩) bs
    else .error ⟨index, some p.read⟩

/-- The characters of a UTF-8 text, or its first fault. -/
def decode (bytes : List UInt8) : Except Utf8Fault (List Char) := decodeFrom 0 none bytes

example : decode [0x61, 0xC3, 0xA9] = .ok ['a', 'é'] := rfl
example : decode [0xF0, 0x9F, 0x98, 0x80] = .ok ['😀'] := rfl
example : decode [0x61, 0xC3, 0x28] = .error ⟨1, some 1⟩ := rfl
example : decode [0xE4, 0xB8, 0x0A] = .error ⟨0, some 2⟩ := rfl
example : decode [0x61, 0xE4, 0xB8] = .error ⟨1, none⟩ := rfl

end TextVault.Text
