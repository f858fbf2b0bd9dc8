/-
  Numerals, read and written.

  Problem: switches, masks and intervals are typed by people, and the first thing wrong with a
  numeral is what they are told.

  Program: `readUnsigned base limit` takes an optional plus sign and then digits, left to right; each
  character is first asked to be a digit and then to keep the value within the limit.
  `readUInt64` and `readInt32` fix the limits of the two widths in use.

  Spec: the fault is that of the first character that goes wrong; `NumeralFault.message` words it.
-/
namespace TextVault.Text

/-- What is wrong with a numeral. -/
inductive NumeralFault where
  | empty
  | invalidDigit
  | tooLarge
  | tooSmall
  deriving DecidableEq, Repr

namespace NumeralFault

/-- The words for a fault, as the operator reads them. -/
def message : NumeralFault → String
  | empty => "cannot parse integer from empty string"
  | invalidDigit => "invalid digit found in string"
  | tooLarge => "number too large to fit in target type"
  | tooSmall => "number too small to fit in target type"

end NumeralFault

/-! ## Digits -/

/-- The value of an ASCII digit or letter, letters of either case standing for ten and up. -/
def digitValue? (c : Char) : Option Nat :=
  let n := c.toNat
  if 0x30 ≤ n ∧ n ≤ 0x39 then some (n - 0x30)
  else if 0x41 ≤ n ∧ n ≤ 0x5A then some (n - 0x41 + 10)
  else if 0x61 ≤ n ∧ n ≤ 0x7A then some (n - 0x61 + 10)
  else none

/-- The value of a digit of the given base. -/
def digitIn? (base : Nat) (c : Char) : Option Nat :=
  (digitValue? c).filter (· < base)

/-- An ASCII decimal digit. -/
def isDigit (c : Char) : Bool := (digitIn? 10 c).isSome

/-- The ASCII digits are all the decimal digits there are here; digits of other scripts are not. -/
theorem isDigit_iff (c : Char) : isDigit c = true ↔ 0x30 ≤ c.toNat ∧ c.toNat ≤ 0x39 := by
  simp only [isDigit, digitIn?, digitValue?, Option.isSome_filter]
  by_cases h : 0x30 ≤ c.toNat ∧ c.toNat ≤ 0x39
  · have hlt : c.toNat - 0x30 < 10 := by omega
    simp [h, hlt]
  · rw [if_neg h]
    split
    · simp [h]
    · split <;> simp [h]

/-! ## Reading -/

/-- Reads digits after those of value `acc`, never going over `limit`. -/
def readDigits (base limit : Nat) : Nat → List Char → Except NumeralFault Nat
  | acc, [] => .ok acc
  | acc, c :: cs =>
    match digitIn? base c with
    | none => .error .invalidDigit
    | some d =>
      if acc * base + d ≤ limit then readDigits base limit (acc * base + d) cs
      else .error .tooLarge

/-- Reads the digits of a numeral whose sign is gone; a sign alone is an invalid digit. -/
def readMagnitude (base limit : Nat) : List Char → Except NumeralFault Nat
  | [] => .error .invalidDigit
  | cs => readDigits base limit 0 cs

/-- Reads an unsigned numeral with an optional plus sign. -/
def readUnsigned (base limit : Nat) : List Char → Except NumeralFault Nat
  | [] => .error .empty
  | '+' :: cs => readMagnitude base limit cs
  | cs => readMagnitude base limit cs

/-- Reads a numeral with an optional sign, of at most `limit` and at least `-(limit + 1)`. -/
def readSigned (base limit : Nat) : List Char → Except NumeralFault Int
  | '-' :: cs =>
    match readMagnitude base (limit + 1) cs with
    | .ok n => .ok (-(n : Int))
    | .error .tooLarge => .error .tooSmall
    | .error fault => .error fault
  | cs => (readUnsigned base limit cs).map Int.ofNat

/-- A decimal numeral of 64 bits without sign. -/
def readUInt64 (cs : List Char) : Except NumeralFault UInt64 :=
  (readUnsigned 10 (UInt64.size - 1) cs).map UInt64.ofNat

/-- A hexadecimal numeral of 64 bits without sign. -/
def readHex64 (cs : List Char) : Except NumeralFault UInt64 :=
  (readUnsigned 16 (UInt64.size - 1) cs).map UInt64.ofNat

/-- A decimal numeral of 32 bits with sign. -/
def readInt32 (cs : List Char) : Except NumeralFault Int32 :=
  (readSigned 10 (Int32.size / 2 - 1) cs).map Int32.ofInt

/-! ## Writing -/

/-- The decimal digits of a number. -/
def decimal (n : Nat) : List Char := Nat.toDigits 10 n

/-- The decimal digits of an integer, after a minus sign if it is negative. -/
def decimalInt : Int → List Char
  | .ofNat n => decimal n
  | .negSucc n => '-' :: decimal (n + 1)

/-- The lower-case hexadecimal digits of a number. -/
def hexadecimal (n : Nat) : List Char := Nat.toDigits 16 n

example : readUInt64 "+007".toList = .ok 7 := rfl
example : readUInt64 "18446744073709551616".toList = .error .tooLarge := rfl
example : readUInt64 "99999999999999999999x".toList = .error .tooLarge := rfl
example : readUInt64 "+".toList = .error .invalidDigit := rfl
example : readHex64 "+fF".toList = .ok 255 := rfl
example : readInt32 "-2147483648".toList = .ok (-2147483648) := rfl
example : readInt32 "-2147483649".toList = .error .tooSmall := rfl
example : decimalInt (-120) = "-120".toList := rfl

end TextVault.Text
