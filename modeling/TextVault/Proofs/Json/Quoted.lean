import TextVault.Json.Quoted
import TextVault.Json.Writer

/-
  Strings that are written are read back, and every string is passed over.

  Problem: a character may stand in a string for itself or be escaped in one of two ways, and both ways of
  reading a string have to find the quote that ends it.

  Program: `IsString` is the grammar of strings without their opening quote. It allows halves of surrogate
  pairs that stand alone, for these spell nothing but are well formed.

  Spec: a written character is read back whether it was escaped or not (`readString_escape`), so any string is
  (`readString_append`). Every string is passed over (`skipString_append`).
-/
namespace TextVault.Json

open Text

/-! ## Steps -/

theorem readString_quote (cs : List Char) : readString ('"' :: cs) = .ok ([], cs) := by
  rw [readString, if_pos rfl]

/-- A character that needs no escape stands for itself. -/
theorem readString_plain {c : Char} (hquote : c ≠ '"') (hslash : c ≠ '\\') (hlow : ¬ c < ' ')
    (cs : List Char) : readString (c :: cs) = (readString cs).map (prepend c) := by
  rw [readString, if_neg hquote, if_neg hslash, if_neg hlow]

theorem readString_escaped {c : Char} {cs rest : List Char} (h : readEscape cs = .ok (c, rest)) :
    readString ('\\' :: cs) = (readString rest).map (prepend c) := by
  rw [readString, if_neg (by decide), if_pos rfl]
  split
  · next h' =>
    obtain ⟨rfl, rfl⟩ := Prod.mk.inj (Except.ok.inj (h.symm.trans h'))
    rfl
  · next h' => cases h.symm.trans h'

theorem skipString_quote (cs : List Char) : skipString ('"' :: cs) = .ok cs := by
  rw [skipString, if_pos rfl]

theorem skipString_plain {c : Char} (hquote : c ≠ '"') (hslash : c ≠ '\\') (hlow : ¬ c < ' ')
    (cs : List Char) : skipString (c :: cs) = skipString cs := by
  rw [skipString, if_neg hquote, if_neg hslash, if_neg hlow]

theorem skipString_escaped {cs rest : List Char} (h : skipEscape cs = .ok rest) :
    skipString ('\\' :: cs) = skipString rest := by
  rw [skipString, if_neg (by decide), if_pos rfl]
  split
  · next h' =>
    obtain rfl := Except.ok.inj (h.symm.trans h')
    rfl
  · next h' => cases h.symm.trans h'

/-! ## Written strings -/

/-- The four digits of a character below the space are its number. -/
theorem unit?_digitChar {n : Nat} (h : n < 0x20) :
    unit? (n / 0x1000 % 16).digitChar (n / 0x100 % 16).digitChar (n / 0x10 % 16).digitChar
      (n % 16).digitChar = some n := by
  revert n
  decide

/-- A control character written by its number is read back. Its number is that of no surrogate, so nothing has to
follow. -/
theorem readEscape_unit {n : Nat} (h : n < 0x20) (rest : List Char) :
    readEscape ('u' :: (fourDigits n ++ rest)) = .ok (Char.ofNat n, rest) := by
  have hunit : readUnit (fourDigits n ++ rest) = .ok (n, rest) := by
    show readUnit (_ :: _ :: _ :: _ :: rest) = _
    rw [readUnit, unit?_digitChar h]
  have hlow : isLowHalf n = false := by simp [isLowHalf]; omega
  have hhigh : isHighHalf n = false := by simp [isHighHalf]; omega
  rw [readEscape, hunit]
  show (if isLowHalf n then _ else if isHighHalf n then _ else _) = _
  rw [hlow, hhigh]
  rfl

/-- A character with a letter of its own is read back from that letter. -/
theorem readEscape_short {c d : Char} (hc : c ≠ 'u') (h : shortEscape? c = some d) (cs : List Char) :
    readEscape (c :: cs) = .ok (d, cs) := by
  rw [readEscape.eq_def]
  split
  · next heq => nomatch heq
  · next heq => exact absurd (List.cons.inj heq).1 hc
  · next heq =>
    obtain ⟨rfl, rfl⟩ := List.cons.inj heq
    rw [h]

/-- **A written character is read back.** -/
theorem readString_escape (c : Char) (rest : List Char) :
    readString (escape c ++ rest) = (readString rest).map (prepend c) := by
  rw [escape]
  repeat
    split
    · next h =>
      subst h
      exact readString_escaped (readEscape_short (by decide) rfl rest)
  split
  · -- A control character without a short form is written by its number.
    next hlow =>
    have hn : c.toNat < 0x20 := hlow
    have hread := readEscape_unit hn rest
    rw [Char.ofNat_toNat] at hread
    exact readString_escaped hread
  · next hquote hslash _ _ _ _ _ hlow =>
    exact readString_plain hquote hslash hlow rest

/-- **A written string is read back.** -/
theorem readString_append (cs rest : List Char) :
    readString (escapeAll cs ++ '"' :: rest) = .ok (cs, rest) := by
  induction cs with
  | nil => exact readString_quote rest
  | cons c cs ih =>
    rw [escapeAll, List.flatMap_cons, List.append_assoc, readString_escape]
    show (readString (escapeAll cs ++ '"' :: rest)).map (prepend c) = _
    rw [ih]
    rfl

/-! ## Strings that are passed over -/

/-- The characters that stand behind a backslash for one character. -/
def escapeLetters : List Char := ['"', '\\', '/', 'b', 'f', 'n', 'r', 't']

/-- The digits of a number in an escape, of either case. -/
def hexDigits : List Char :=
  ['0', '1', '2', '3', '4', '5', '6', '7', '8', '9', 'A', 'B', 'C', 'D', 'E', 'F', 'a', 'b', 'c', 'd', 'e',
    'f']

/-- The text of a string, from behind its opening quote to its closing one. -/
inductive IsString : List Char → Prop
  | close : IsString ['"']
  | plain {c : Char} {cs : List Char} (hquote : c ≠ '"') (hslash : c ≠ '\\') (hlow : ¬ c < ' ')
      (h : IsString cs) : IsString (c :: cs)
  | letter {c : Char} {cs : List Char} (hc : c ∈ escapeLetters) (h : IsString cs) :
      IsString ('\\' :: c :: cs)
  | digits {a b c d : Char} {cs : List Char} (hdigits : ∀ x ∈ [a, b, c, d], x ∈ hexDigits)
      (h : IsString cs) : IsString ('\\' :: 'u' :: a :: b :: c :: d :: cs)

/-- A letter is passed over together with its backslash. -/
theorem skipEscape_letter {c : Char} (hc : c ∈ escapeLetters) (cs : List Char) :
    skipEscape (c :: cs) = .ok cs := by
  have hletter : (escapeLetters.all fun x => x != 'u' && (shortEscape? x).isSome) = true := by decide
  obtain ⟨hu, hshort⟩ := (Bool.and_eq_true ..).mp (List.all_eq_true.mp hletter c hc)
  rw [skipEscape.eq_def]
  split
  · next heq => nomatch heq
  · next heq => exact absurd (List.cons.inj heq).1 (bne_iff_ne.mp hu)
  · next heq =>
    obtain ⟨rfl, rfl⟩ := List.cons.inj heq
    rw [if_pos hshort]

theorem skipEscape_digits {a b c d : Char} (hdigits : ∀ x ∈ [a, b, c, d], x ∈ hexDigits)
    (cs : List Char) : skipEscape ('u' :: a :: b :: c :: d :: cs) = .ok cs := by
  have hhex : (hexDigits.all fun x => (digitIn? 16 x).isSome) = true := by decide
  have hdigit (x : Char) (hx : x ∈ [a, b, c, d]) : ∃ n, digitIn? 16 x = some n :=
    Option.isSome_iff_exists.mp (List.all_eq_true.mp hhex x (hdigits x hx))
  obtain ⟨m, ha⟩ := hdigit a (by simp)
  obtain ⟨n, hb⟩ := hdigit b (by simp)
  obtain ⟨o, hc⟩ := hdigit c (by simp)
  obtain ⟨p, hd⟩ := hdigit d (by simp)
  have hunit : unit? a b c d = some (((m * 16 + n) * 16 + o) * 16 + p) := by
    rw [unit?, ha, hb, hc, hd]
    rfl
  rw [skipEscape, readUnit, hunit]
  rfl

/-- **A string is passed over.** -/
theorem skipString_append {cs : List Char} (h : IsString cs) (rest : List Char) :
    skipString (cs ++ rest) = .ok rest := by
  induction h with
  | close => exact skipString_quote rest
  | plain hquote hslash hlow h ih =>
    rw [List.cons_append, skipString_plain hquote hslash hlow]
    exact ih
  | letter hc h ih =>
    rw [List.cons_append, List.cons_append, skipString_escaped (skipEscape_letter hc _)]
    exact ih
  | digits hdigits h ih => exact (skipString_escaped (skipEscape_digits hdigits _)).trans ih

end TextVault.Json
