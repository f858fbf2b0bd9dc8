import TextVault.Json.Value
import TextVault.Text.Numeral

/-
  Writing JSON text.

  Problem: a value has to be written so that it reads back, in one way only.

  Program: `write` leaves no blanks. A string escapes the quote, the backslash and the characters
  below the space, five of them by a letter and the others by four hexadecimal digits; every other
  character stands for itself.

  Assumed of the writer of JSON: there is one written form for each value, without blanks, with the fields in
  order, and only what JSON requires to be escaped is escaped, whatever else could be.

  Spec: `escape` decides the written form of each character, and a string is written character by
  character (`escapeAll_append`).
-/
namespace TextVault.Json

open Text

/-- Four hexadecimal digits, lower case, of a number below 0x10000. -/
def fourDigits (n : Nat) : List Char :=
  [n / 0x1000 % 16, n / 0x100 % 16, n / 0x10 % 16, n % 16].map Nat.digitChar

/-- A character as it stands in a string. -/
def escape (c : Char) : List Char :=
  if c = '"' then ['\\', '"']
  else if c = '\\' then ['\\', '\\']
  else if c = '\x08' then ['\\', 'b']
  else if c = '\x0c' then ['\\', 'f']
  else if c = '\n' then ['\\', 'n']
  else if c = '\r' then ['\\', 'r']
  else if c = '\t' then ['\\', 't']
  else if c < ' ' then '\\' :: 'u' :: fourDigits c.toNat
  else [c]

/-- The inside of a string as it is written. -/
def escapeAll (cs : List Char) : List Char := cs.flatMap escape

/-- A string is written character by character, so where a text is cut makes no difference. -/
theorem escapeAll_append (xs ys : List Char) :
    escapeAll (xs ++ ys) = escapeAll xs ++ escapeAll ys := List.flatMap_append

/-- A string with its quotes. -/
def writeString (s : String) : List Char := '"' :: (escapeAll s.toList ++ ['"'])

mutual

/-- The text of a value. -/
def write : Json → List Char
  | .bool true => ['t', 'r', 'u', 'e']
  | .bool false => ['f', 'a', 'l', 's', 'e']
  | .int n => decimalInt n
  | .text s => writeString s
  | .record fields => '{' :: writeFields fields

/-- The fields of a record, the first without a comma, and the closing brace. -/
def writeFields : List (String × Json) → List Char
  | [] => ['}']
  | (name, value) :: fields =>
    writeString name ++ ':' :: (write value ++ writeMoreFields fields)

/-- Further fields of a record, each after a comma, and the closing brace. -/
def writeMoreFields : List (String × Json) → List Char
  | [] => ['}']
  | (name, value) :: fields =>
    ',' :: (writeString name ++ ':' :: (write value ++ writeMoreFields fields))

end

end TextVault.Json
