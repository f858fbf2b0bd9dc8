import TextVault.Json.Value
import TextVault.Text.Numeral

/-
  Numbers in JSON text.

  Problem: only integers of 64 bits are ever asked for, but a text may hold any number where one is
  expected. A number that no 64-bit float can hold is no value at all, and has to be told from one that
  merely has a fraction.

  Program: `scanNumber` splits a number into its digits. `Digits.value` keeps the digits that fit in 64
  bits and lets the others only scale the number (`fill`). If what is kept is an integer it is the
  value; if not, `overflows` asks whether the number, made by one rounded product of two floats, is
  beyond all floats.

  Assumed of the reader of JSON: a number that has a point or an exponent is never an integer, even
  if its value is one, and a number is refused only when the float made of it would be infinite.
-/
namespace TextVault.Json

open Text

/-! ## Digits -/

/-- The digits of a number as written. -/
structure Digits where
  whole : List Char
  /-- What stands behind a point. -/
  fraction : Option (List Char)
  exponent : Option Int
  deriving DecidableEq, Repr

/-- Reads one digit or more; `atEnd` is the fault of a text that ends here. -/
def scanSomeDigits (atEnd : Fault) : Scan (List Char)
  | [] => .error atEnd
  | c :: cs =>
    if isDigit c then .ok ((c :: cs).takeWhile isDigit, (c :: cs).dropWhile isDigit)
    else .error .malformed

/-- Reads the digits before the point, which do not start with a zero unless they are one. -/
def scanWhole (atEnd : Fault) : Scan (List Char)
  | '0' :: c :: cs => if isDigit c then .error .malformed else .ok (['0'], c :: cs)
  | cs => scanSomeDigits atEnd cs

/-- Reads the digits behind a point, if there is one. -/
def scanFraction (atEnd : Fault) : Scan (Option (List Char))
  | '.' :: cs => (scanSomeDigits atEnd cs).map fun r => (some r.1, r.2)
  | cs => .ok (none, cs)

/-- The number that decimal digits give. -/
def digitsValue (cs : List Char) : Nat := Nat.ofDigitChars 10 cs 0

/-- Reads an exponent, if there is one. -/
def scanExponent (atEnd : Fault) : Scan (Option Int)
  | c :: cs =>
    if c = 'e' ∨ c = 'E' then
      match cs with
      | '-' :: cs => (scanSomeDigits atEnd cs).map fun r => (some (-(digitsValue r.1 : Int)), r.2)
      | '+' :: cs => (scanSomeDigits atEnd cs).map fun r => (some (digitsValue r.1 : Int), r.2)
      | cs => (scanSomeDigits atEnd cs).map fun r => (some (digitsValue r.1 : Int), r.2)
    else .ok (none, c :: cs)
  | [] => .ok (none, [])

/-- Splits a number whose sign is gone. -/
def scanNumber (atEnd : Fault) : Scan Digits := fun cs => do
  let (whole, cs) ← scanWhole atEnd cs
  let (fraction, cs) ← scanFraction atEnd cs
  let (exponent, cs) ← scanExponent atEnd cs
  return (⟨whole, fraction, exponent⟩, cs)

/-! ## Floats -/

/-- The natural number with 53 significant bits that is nearest, of two equally near ones the even. -/
def roundToFloat (n : Nat) : Nat :=
  let excess := n.log2 + 1 - 53
  let unit := 1 <<< excess
  let kept := n / unit
  let rest := n % unit
  if unit < 2 * rest ∨ (unit = 2 * rest ∧ kept % 2 = 1) then (kept + 1) * unit else kept * unit

/-- The least magnitude that a float of 64 bits rounds to infinity. -/
def floatLimit : Nat := 1 <<< 1024 - 1 <<< 970

/-- Whether `significand * 10 ^ exponent` is beyond all floats, as a product of rounded factors. -/
def overflows (significand : Nat) (exponent : Int) : Bool :=
  if significand = 0 ∨ exponent < 0 then false
  else if 308 < exponent then true
  else floatLimit ≤ roundToFloat significand * roundToFloat (Nat.pow 10 exponent.toNat)

/-! ## Values -/

/-- Appends digits to a number as long as it stays within 64 bits; gives the digits left over. -/
def fill : Nat → List Char → Nat × List Char
  | n, [] => (n, [])
  | n, c :: cs =>
    let next := n * 10 + (c.toNat - 0x30)
    if next < UInt64.size then fill next cs else (n, c :: cs)

/-- The integer of a sign and a magnitude. Minus zero is none, and neither is one below 64 bits. -/
def signed? (negative : Bool) (n : Nat) : Option Int :=
  if negative then if 0 < n ∧ n ≤ UInt64.size / 2 then some (-n) else none else some n

/-- The value of a number, or nothing for a number that is no integer of 64 bits. -/
def Digits.value (d : Digits) (negative : Bool) : Except Fault (Option Int) :=
  let (n, dropped) := fill 0 d.whole
  if d.fraction.isNone ∧ d.exponent.isNone ∧ dropped = [] then .ok (signed? negative n)
  else
    let fraction := d.fraction.getD []
    let (n, rest) := fill n fraction
    let scale : Int := dropped.length + rest.length - fraction.length
    if overflows n (scale + d.exponent.getD 0) then .error .malformed else .ok none

/-- Reads a number whose sign is gone. -/
def readNumber (negative : Bool) : Scan (Option Int) := fun cs => do
  let (digits, cs) ← scanNumber .unfinished cs
  return (← digits.value negative, cs)

/-- Passes over a number whose sign is gone; one that the text cuts short is malformed. -/
def skipNumber (cs : List Char) : Except Fault (List Char) :=
  (scanNumber .malformed cs).map (·.2)

example : overflows 17976931348623158 292 = true := by decide +kernel
example : overflows 179769313486231581 291 = false := by decide +kernel
example : readNumber true "9223372036854775808,".toList = .ok (some (-2 ^ 63), [',']) := rfl
example : readNumber false "1e".toList = .error .unfinished := rfl
example : skipNumber "1e".toList = .error .malformed := rfl

end TextVault.Json
