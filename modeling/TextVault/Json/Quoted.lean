import TextVault.Json.Value
import TextVault.Text.Numeral

/-
  Strings in JSON text.

  Problem: a string may escape any character by its number, and characters beyond four hexadecimal
  digits by two numbers, the halves of a surrogate pair. A half that stands alone spells nothing.

  Program: `readString` reads a string that is asked for and refuses a lone half where it stands;
  `skipString` passes over one that is not, and lets it be.

  Assumed of the reader of JSON: the nine escapes of one letter or number are all there are, a control
  character may not stand for itself, and a string that is passed over is checked for its escapes but not
  for its surrogates.

  Spec: an escape needs four more bytes before its digits are looked at (`cutEscape`), so a text that
  ends within them is unfinished whatever they are. An escape leaves no more than it was given
  (`readEscape_length`, `skipEscape_length`), so reading a string comes to an end.
-/
namespace TextVault.Json

open Text

/-! ## Escapes -/

/-- The characters with a one-letter escape. -/
def shortEscape? : Char → Option Char
  | '"' => some '"'
  | '\\' => some '\\'
  | '/' => some '/'
  | 'b' => some '\x08'
  | 'f' => some '\x0c'
  | 'n' => some '\n'
  | 'r' => some '\r'
  | 't' => some '\t'
  | _ => none

/-- The code unit of four hexadecimal digits. -/
def unit? (a b c d : Char) : Option Nat := do
  let a ← digitIn? 16 a
  let b ← digitIn? 16 b
  let c ← digitIn? 16 c
  let d ← digitIn? 16 d
  return ((a * 16 + b) * 16 + c) * 16 + d

/-- The first of the two code units that stand for one character beyond four digits. -/
def isHighHalf (u : Nat) : Bool := 0xD800 ≤ u && u ≤ 0xDBFF

/-- The second of them, which means nothing without the first. -/
def isLowHalf (u : Nat) : Bool := 0xDC00 ≤ u && u ≤ 0xDFFF

/-- The character that two halves make. -/
def joinHalves (high low : Nat) : Char :=
  Char.ofNat (0x10000 + (high - 0xD800) * 0x400 + (low - 0xDC00))

/-- The number of bytes of a text. -/
def byteCount (cs : List Char) : Nat := cs.foldl (fun n c => n + c.utf8Size) 0

/-- The fault of an escape that has fewer than four characters behind it. -/
def cutEscape (cs : List Char) : Fault := if byteCount cs < 4 then .unfinished else .malformed

/-- Reads a code unit. -/
def readUnit : Scan Nat
  | a :: b :: c :: d :: cs =>
    match unit? a b c d with
    | some u => .ok (u, cs)
    | none => .error .malformed
  | cs => .error (cutEscape cs)

/-- Reads the low half that has to follow a high one, and joins them. -/
def readLowHalf (high : Nat) : Scan Char
  | [] => .error .unfinished
  | ['\\'] => .error .unfinished
  | '\\' :: 'u' :: cs => do
    let (low, cs) ← readUnit cs
    if isLowHalf low then .ok (joinHalves high low, cs) else .error .malformed
  | _ => .error .malformed

/-- Reads an escape whose backslash is gone. -/
def readEscape : Scan Char
  | [] => .error .unfinished
  | 'u' :: cs => do
    let (u, cs) ← readUnit cs
    -- A low half stands for nothing but behind a high one.
    if isLowHalf u then .error .malformed
    else if isHighHalf u then readLowHalf u cs
    else .ok (Char.ofNat u, cs)
  | c :: cs =>
    match shortEscape? c with
    | some c => .ok (c, cs)
    | none => .error .malformed

/-- Passes over an escape whose backslash is gone. -/
def skipEscape : List Char → Except Fault (List Char)
  | [] => .error .unfinished
  | 'u' :: cs => (readUnit cs).map (·.2)
  | c :: cs => if (shortEscape? c).isSome then .ok cs else .error .malformed

/-- Reading a code unit uses up characters, so what is left is no longer than before. -/
theorem readUnit_length {cs rest : List Char} {u : Nat} (h : readUnit cs = .ok (u, rest)) :
    rest.length ≤ cs.length := by
  unfold readUnit at h
  split at h
  · split at h
    · simp only [Except.ok.injEq, Prod.mk.injEq] at h
      obtain ⟨-, rfl⟩ := h
      simp only [List.length_cons]
      omega
    · cases h
  · cases h

/-- Nor is it after the second half of a pair, which is read behind a backslash of its own. -/
theorem readLowHalf_length {high : Nat} {cs rest : List Char} {c : Char}
    (h : readLowHalf high cs = .ok (c, rest)) : rest.length ≤ cs.length := by
  unfold readLowHalf at h
  split at h
  · cases h
  · cases h
  · rename_i cs
    cases hu : readUnit cs with
    | error fault => simp [hu, bind, Except.bind] at h
    | ok r =>
      have := readUnit_length hu
      simp only [hu, bind, Except.bind] at h
      split at h
      · simp only [Except.ok.injEq, Prod.mk.injEq] at h
        obtain ⟨-, rfl⟩ := h
        simp only [List.length_cons]
        omega
      · cases h
  · cases h

/-- **Reading an escape comes forward**, whichever escape it is; a string that is read character by character
therefore ends. -/
theorem readEscape_length {cs rest : List Char} {c : Char} (h : readEscape cs = .ok (c, rest)) :
    rest.length ≤ cs.length := by
  unfold readEscape at h
  split at h
  · cases h
  · rename_i cs
    cases hu : readUnit cs with
    | error fault => simp [hu, bind, Except.bind] at h
    | ok r =>
      have := readUnit_length hu
      simp only [hu, bind, Except.bind] at h
      split at h
      · cases h
      · split at h
        · have := readLowHalf_length h
          simp only [List.length_cons]
          omega
        · simp only [Except.ok.injEq, Prod.mk.injEq] at h
          obtain ⟨-, rfl⟩ := h
          simp only [List.length_cons]
          omega
  · split at h
    · simp only [Except.ok.injEq, Prod.mk.injEq] at h
      obtain ⟨-, rfl⟩ := h
      simp
    · cases h

/-- Passing over an escape comes forward as well. It looks at the digits but not at what they mean. -/
theorem skipEscape_length {cs rest : List Char} (h : skipEscape cs = .ok rest) :
    rest.length ≤ cs.length := by
  unfold skipEscape at h
  split at h
  · cases h
  · rename_i cs
    cases hu : readUnit cs with
    | error fault => simp [hu, Except.map] at h
    | ok r =>
      have := readUnit_length hu
      simp only [hu, Except.map, Except.ok.injEq] at h
      subst h
      simp only [List.length_cons]
      omega
  · split at h
    · cases h
      simp
    · cases h

/-! ## Strings -/

/-- Puts a character in front of those read after it. -/
def prepend (c : Char) (r : List Char × List Char) : List Char × List Char := (c :: r.1, r.2)

/-- Reads a string whose opening quote is gone. -/
def readString : Scan (List Char)
  | [] => .error .unfinished
  | c :: cs =>
    if c = '"' then .ok ([], cs)
    else if c = '\\' then
      match h : readEscape cs with
      | .ok (c, rest) =>
        have := readEscape_length h
        (readString rest).map (prepend c)
      | .error fault => .error fault
    -- Control characters have to be escaped.
    else if c < ' ' then .error .malformed
    else (readString cs).map (prepend c)
termination_by cs => cs.length

/-- Passes over a string whose opening quote is gone. -/
def skipString : List Char → Except Fault (List Char)
  | [] => .error .unfinished
  | c :: cs =>
    if c = '"' then .ok cs
    else if c = '\\' then
      match h : skipEscape cs with
      | .ok rest =>
        have := skipEscape_length h
        skipString rest
      | .error fault => .error fault
    else if c < ' ' then .error .malformed
    else skipString cs
termination_by cs => cs.length

example : readString "\\ud83d\\ude00\"x".toList = .ok (['😀'], ['x']) := by cbv
example : readString "\\ud83dx".toList = .error .malformed := by cbv
example : readString "\\ud83d".toList = .error .unfinished := by cbv
example : skipString "\\ud83d\"x".toList = .ok ['x'] := by cbv

end TextVault.Json
