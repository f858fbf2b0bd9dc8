import TextVault.Text.Numeral
import TextVault.Text.Printable

/-
  Quoted text.

  Problem: a text is shown on one line so that its ends, its quotes and its invisible characters can
  be told apart.

  Program: `quote` puts a text between double quotes. A quote or a backslash is written after a
  backslash; NUL, tab, line feed and carriage return have a letter; any other character that is not
  printable is written by its number in hexadecimal. An apostrophe stands for itself.

  Spec: `escapeAll` is a concatenation over the characters, so quoting goes through appending
  (`escapeAll_append`).
-/
namespace TextVault.Text

/-- The hexadecimal number of a character between braces. -/
def escapeNumber (c : Char) : List Char :=
  '\\' :: 'u' :: '{' :: (hexadecimal c.toNat ++ ['}'])

/-- A character as it stands between quotes. -/
def escape (c : Char) : List Char :=
  if c = '\x00' then ['\\', '0']
  else if c = '\t' then ['\\', 't']
  else if c = '\n' then ['\\', 'n']
  else if c = '\r' then ['\\', 'r']
  else if c = '"' then ['\\', '"']
  else if c = '\\' then ['\\', '\\']
  else if isPrintable c then [c]
  else escapeNumber c

/-- A text with each of its characters written so that it can be told on one line. -/
def escapeAll (cs : List Char) : List Char := cs.flatMap escape

theorem escapeAll_append (xs ys : List Char) :
    escapeAll (xs ++ ys) = escapeAll xs ++ escapeAll ys := List.flatMap_append

/-- A text between quotes. -/
def quote (s : String) : String := String.ofList ('"' :: (escapeAll s.toList ++ ['"']))

example : quote "say \"it's\"\n" = "\"say \\\"it's\\\"\\n\"" := by decide +kernel
example : quote "a\x01b" = "\"a\\u\x7b1\x7db\"" := by decide +kernel

end TextVault.Text
