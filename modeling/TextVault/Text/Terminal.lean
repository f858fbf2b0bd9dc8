/-
  Text without terminal control sequences.

  Problem: a line of the log may hold what somebody typed, and a terminal would obey the control
  sequences in it.

  Program: a character is part of plain text or of a control sequence, and its `Mode` says of which
  kind. `Mode.next` is the mode after a character, and `plain` keeps the characters that show in the
  mode they stand in.

  Spec: what is kept has no control characters but ASCII blanks (`isPlain_of_mem_plain`).
-/
namespace TextVault.Text

/-- A character between two others, both included. -/
def between (low high c : Char) : Bool := low ≤ c && c ≤ high

/-- The ASCII blanks that are control characters. -/
def isControlBlank (c : Char) : Bool := c = '\t' || c = '\n' || c = '\x0c' || c = '\r'

/-- A character that may stand in plain text: an ASCII control character only if it is a blank. -/
def isPlain (c : Char) : Bool := between ' ' '~' c || '\x7f' < c || isControlBlank c

/-- What a character is part of. -/
inductive Mode where
  | text
  /-- The start of a sequence. -/
  | escape
  /-- A sequence whose parameters have begun. -/
  | escapeRest
  /-- A control sequence, up to its final letter. -/
  | control
  /-- A command to the terminal's system, up to the bell. -/
  | command
  /-- The start of a device string. -/
  | device
  | deviceParameters
  | deviceRest
  /-- A string of which nothing shows, up to its end mark. -/
  | hidden
  deriving DecidableEq, Repr

namespace Mode

/-- The byte 0x9C, which ends a hidden string even as a part of a character. -/
def endMark : UInt8 := 0x9C

/-- The mode after the escape character and one more. -/
def ofEscape (c : Char) : Mode :=
  if between ' ' '/' c then escapeRest
  else if c = '[' then control
  else if c = ']' then command
  else if c = 'P' then device
  else if c = 'X' || c = '^' || c = '_' then hidden
  else if between '0' '~' c then text
  else escape

/-- The mode after a character. Two characters break a sequence off wherever it stands, and a third
one begins another. -/
def next (m : Mode) (c : Char) : Mode :=
  if c = '\x18' || c = '\x1a' then text
  else if c = '\x1b' then escape
  else
    match m with
    | text => text
    | escape => ofEscape c
    | escapeRest => if between '0' '~' c then text else escapeRest
    | control => if between '@' '~' c then text else control
    | command => if c = '\x07' then text else command
    | device =>
      if between ' ' '/' c then deviceRest
      else if between '0' '?' c then deviceParameters
      else if between '@' '~' c then hidden
      else device
    | deviceParameters =>
      if between ' ' '/' c then deviceRest
      else if between '<' '~' c then hidden
      else deviceParameters
    | deviceRest => if between '0' '~' c then hidden else deviceRest
    | hidden => if (String.utf8EncodeChar c).contains endMark then text else hidden

/-- Whether a character shows. A line may end within a short sequence but not within a string. -/
def shows (m : Mode) (c : Char) : Bool :=
  match m with
  | text => isPlain c
  | escape | escapeRest | control => isControlBlank c
  | command | device | deviceParameters | deviceRest | hidden => false

/-- Nothing shows but what may stand in plain text, whatever sequence it stands in. -/
theorem isPlain_of_shows {m : Mode} {c : Char} (h : m.shows c = true) : isPlain c = true := by
  cases m <;> simp_all [shows, isPlain]

end Mode

/-- The characters that show in a text which begins in a mode. -/
def shown (m : Mode) : List Char → List Char
  | [] => []
  | c :: cs => if m.shows c then c :: shown (m.next c) cs else shown (m.next c) cs

/-- A text without its control sequences. -/
def plain (cs : List Char) : List Char := shown .text cs

/-- So whatever is kept is plain, in whichever sequence the text begins. -/
theorem isPlain_of_mem_shown {m : Mode} {c : Char} {cs : List Char} (h : c ∈ shown m cs) :
    isPlain c = true := by
  induction cs generalizing m with
  | nil => simp [shown] at h
  | cons d cs ih =>
    simp only [shown] at h
    split at h
    · rename_i hd
      rcases List.mem_cons.mp h with rfl | h
      · exact Mode.isPlain_of_shows hd
      · exact ih h
    · exact ih h

/-- **No control sequence survives**, not even a broken one. -/
theorem isPlain_of_mem_plain {c : Char} {cs : List Char} (h : c ∈ plain cs) : isPlain c = true :=
  isPlain_of_mem_shown h

example : plain "\x1b[31mred\x1b[0m\n".toList = "red\n".toList := by decide
example : plain "a\x1b]0;b\x07c".toList = "ac".toList := by decide

end TextVault.Text
