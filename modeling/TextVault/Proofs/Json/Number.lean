import TextVault.Json.Number

/-
  Numbers that are written are read back, and every number is passed over.

  Problem: nothing ends a number but what stands behind it, so where it ends depends on the text after it.

  Program: `IsNumber` is the grammar of numbers without their sign: digits, a fraction and an exponent. `Ends`
  says of a text that no number before it goes on with it.

  Spec: a number that ends is passed over, whatever its size (`skipNumber_append`). The digits of a natural
  number of 64 bits are a number, and reading them gives it back (`readNumber_decimal`).
-/
namespace TextVault.Json

open Text

/-! ## The grammar -/

/-- One digit or more. -/
def SomeDigits (cs : List Char) : Prop := cs ≠ [] ∧ ∀ c ∈ cs, isDigit c = true

/-- The digits before a point: a zero, or digits that do not start with one. -/
def IsWhole (cs : List Char) : Prop := cs = ['0'] ∨ SomeDigits cs ∧ cs.head? ≠ some '0'

/-- A point with digits behind it, or no point. -/
inductive IsFraction : List Char → Prop
  | absent : IsFraction []
  | point {cs : List Char} (h : SomeDigits cs) : IsFraction ('.' :: cs)

/-- A letter with digits behind it and perhaps a sign between them, or no exponent. -/
inductive IsExponent : List Char → Prop
  | absent : IsExponent []
  | plain {c : Char} {cs : List Char} (hc : c = 'e' ∨ c = 'E') (h : SomeDigits cs) : IsExponent (c :: cs)
  | signed {c sign : Char} {cs : List Char} (hc : c = 'e' ∨ c = 'E') (hsign : sign = '+' ∨ sign = '-')
      (h : SomeDigits cs) : IsExponent (c :: sign :: cs)

/-- A number without its sign. -/
inductive IsNumber : List Char → Prop
  | mk {whole fraction exponent : List Char} (hwhole : IsWhole whole) (hfraction : IsFraction fraction)
      (hexponent : IsExponent exponent) : IsNumber (whole ++ (fraction ++ exponent))

/-- The text does not start with a digit. -/
def NoDigit (cs : List Char) : Prop := ∀ c ∈ cs.head?, isDigit c = false

/-- No number goes on with the text. -/
def Ends (cs : List Char) : Prop :=
  ∀ c ∈ cs.head?, isDigit c = false ∧ c ≠ '.' ∧ c ≠ 'e' ∧ c ≠ 'E'

theorem ends_nil : Ends [] := nofun

theorem ends_cons {c : Char} (cs : List Char) (hdigit : isDigit c = false) (hpoint : c ≠ '.')
    (he : c ≠ 'e') (hE : c ≠ 'E') : Ends (c :: cs) := by
  intro d hd
  obtain rfl := Option.some.inj hd
  exact ⟨hdigit, hpoint, he, hE⟩

theorem noDigit_cons {c : Char} (cs : List Char) (h : isDigit c = false) : NoDigit (c :: cs) := by
  intro d hd
  obtain rfl := Option.some.inj hd
  exact h

theorem Ends.noDigit {cs : List Char} (h : Ends cs) : NoDigit cs := fun c hc => (h c hc).1

/-! ## Digits -/

/-- A digit by its value. -/
theorem isDigit_of_mem_decimal {n : Nat} {c : Char} (h : c ∈ decimal n) : isDigit c = true := by
  rw [isDigit_iff]
  exact Char.isDigit_iff_toNat.mp (Nat.isDigit_of_mem_toDigits (by decide) (by decide) h)

/-- Digits are read up to where they end. -/
theorem scanSomeDigits_append {ds rest : List Char} (atEnd : Fault) (hds : SomeDigits ds)
    (hrest : NoDigit rest) : scanSomeDigits atEnd (ds ++ rest) = .ok (ds, rest) := by
  obtain ⟨hne, hall⟩ := hds
  have htake : (ds ++ rest).takeWhile isDigit = ds := by
    rw [List.takeWhile_append_of_pos hall]
    cases rest with
    | nil => rw [List.takeWhile_nil, List.append_nil]
    | cons c rest => rw [List.takeWhile_cons_of_neg (by simp [hrest c rfl]), List.append_nil]
  have hdrop : (ds ++ rest).dropWhile isDigit = rest := by
    rw [List.dropWhile_append_of_pos hall]
    cases rest with
    | nil => rfl
    | cons c rest => rw [List.dropWhile_cons_of_neg (by simp [hrest c rfl])]
  cases ds with
  | nil => exact absurd rfl hne
  | cons d ds =>
    rw [List.cons_append] at htake hdrop ⊢
    rw [scanSomeDigits, if_pos (hall d List.mem_cons_self), htake, hdrop]

/-- The digits before the point are read as far as they go. A zero is read alone, and what follows must not be a
digit. -/
theorem scanWhole_append {ds rest : List Char} (atEnd : Fault) (hds : IsWhole ds) (hrest : NoDigit rest) :
    scanWhole atEnd (ds ++ rest) = .ok (ds, rest) := by
  rcases hds with rfl | ⟨hds, hzero⟩
  · cases rest with
    | nil => rfl
    | cons c rest =>
      show (if isDigit c then _ else _) = _
      rw [hrest c rfl]
      rfl
  · have hscan := scanSomeDigits_append atEnd hds hrest
    rw [scanWhole.eq_def]
    split
    · -- A zero at the start would be the whole number.
      next heq =>
      obtain ⟨hne, -⟩ := hds
      cases ds with
      | nil => exact absurd rfl hne
      | cons d ds =>
        obtain ⟨rfl, -⟩ := List.cons.inj heq
        exact absurd rfl hzero
    · exact hscan

/-- Without a point there is no fraction, and nothing is used up. -/
theorem scanFraction_absent {rest : List Char} (atEnd : Fault) (hpoint : rest.head? ≠ some '.') :
    scanFraction atEnd rest = .ok (none, rest) := by
  rw [scanFraction.eq_def]
  split
  · exact absurd rfl hpoint
  · rfl

theorem scanExponent_absent {rest : List Char} (atEnd : Fault) (hrest : Ends rest) :
    scanExponent atEnd rest = .ok (none, rest) := by
  cases rest with
  | nil => rfl
  | cons c rest =>
    obtain ⟨-, -, he, hE⟩ := hrest c rfl
    rw [scanExponent.eq_def]
    exact if_neg (by simp [he, hE])

/-- A fraction is read to its last digit. -/
theorem scanFraction_append {ds rest : List Char} (atEnd : Fault) (hds : IsFraction ds)
    (hrest : NoDigit rest) (hpoint : rest.head? ≠ some '.') :
    ∃ fraction, scanFraction atEnd (ds ++ rest) = .ok (fraction, rest) := by
  cases hds with
  | absent => exact ⟨none, scanFraction_absent atEnd hpoint⟩
  | @point cs h =>
    refine ⟨some cs, ?_⟩
    rw [List.cons_append, scanFraction, scanSomeDigits_append atEnd h hrest]
    rfl

/-- So is an exponent, with either sign or without one. -/
theorem scanExponent_append {ds rest : List Char} (atEnd : Fault) (hds : IsExponent ds)
    (hrest : Ends rest) : ∃ exponent, scanExponent atEnd (ds ++ rest) = .ok (exponent, rest) := by
  cases hds with
  | absent => exact ⟨none, scanExponent_absent atEnd hrest⟩
  | @plain c cs hc h =>
    refine ⟨some (digitsValue cs), ?_⟩
    have hscan := scanSomeDigits_append atEnd h hrest.noDigit
    -- A digit is no sign.
    have hsign (sign : Char) (hsign : isDigit sign = false) (ds : List Char) :
        cs ++ rest ≠ sign :: ds := by
      obtain ⟨hne, hall⟩ := h
      intro heq
      cases cs with
      | nil => exact hne rfl
      | cons d cs =>
        obtain ⟨rfl, -⟩ := List.cons.inj heq
        rw [hall d List.mem_cons_self] at hsign
        nomatch hsign
    rw [List.cons_append, scanExponent.eq_def]
    dsimp only
    rw [if_pos hc]
    split
    · next heq => exact absurd heq (hsign '-' rfl _)
    · next heq => exact absurd heq (hsign '+' rfl _)
    · rw [hscan]
      rfl
  | @signed c sign cs hc hsign h =>
    have hscan := scanSomeDigits_append atEnd h hrest.noDigit
    rw [List.cons_append, List.cons_append, scanExponent.eq_def]
    dsimp only
    rw [if_pos hc]
    rcases hsign with rfl | rfl
    · refine ⟨some (digitsValue cs), ?_⟩
      show (scanSomeDigits atEnd (cs ++ rest)).map _ = _
      rw [hscan]
      rfl
    · refine ⟨some (-(digitsValue cs : Int)), ?_⟩
      show (scanSomeDigits atEnd (cs ++ rest)).map _ = _
      rw [hscan]
      rfl

/-- What comes after the whole part starts with no digit, and what comes after a fraction with no point. -/
theorem noDigit_fraction {fraction rest : List Char} (h : IsFraction fraction) (hrest : NoDigit rest) :
    NoDigit (fraction ++ rest) := by
  cases h with
  | absent => exact hrest
  | point h => exact noDigit_cons _ rfl

/-- Behind the fraction comes no digit: an exponent starts with its letter, and without one the number is over. -/
theorem noDigit_exponent {exponent rest : List Char} (h : IsExponent exponent) (hrest : Ends rest) :
    NoDigit (exponent ++ rest) ∧ (exponent ++ rest).head? ≠ some '.' := by
  cases h with
  | absent => exact ⟨hrest.noDigit, fun hc => (hrest '.' hc).2.1 rfl⟩
  | plain hc h => rcases hc with rfl | rfl <;> exact ⟨noDigit_cons _ rfl, nofun⟩
  | signed hc hsign h => rcases hc with rfl | rfl <;> exact ⟨noDigit_cons _ rfl, nofun⟩

/-- **A number is passed over**, whatever its size. -/
theorem skipNumber_append {cs rest : List Char} (hcs : IsNumber cs) (hrest : Ends rest) :
    skipNumber (cs ++ rest) = .ok rest := by
  obtain ⟨hwhole, hfraction, hexponent⟩ := hcs
  obtain ⟨hdigit, hpoint⟩ := noDigit_exponent hexponent hrest
  have hw := scanWhole_append .malformed hwhole (noDigit_fraction hfraction hdigit)
  obtain ⟨fraction, hf⟩ := scanFraction_append .malformed hfraction hdigit hpoint
  obtain ⟨exponent, he⟩ := scanExponent_append .malformed hexponent hrest
  rw [List.append_assoc, List.append_assoc, skipNumber, scanNumber, hw]
  show Except.map _ (scanFraction _ _ >>= _) = _
  rw [hf]
  show Except.map _ (scanExponent _ _ >>= _) = _
  rw [he]
  rfl

/-! ## Integers -/

/-- A number that is written has no zero in front, unless it is zero itself. -/
theorem head_decimal {n : Nat} (hn : n ≠ 0) : (decimal n).head? ≠ some '0' := by
  induction n using Nat.strongRecOn with
  | ind n ih =>
    rw [decimal]
    by_cases hlt : n < 10
    · rw [Nat.toDigits_of_lt_base hlt]
      have hdigit : ∀ d < 10, d ≠ 0 → [d.digitChar].head? ≠ some '0' := by decide
      exact hdigit n hlt hn
    · -- The first digit of a number is that of its tenth.
      rw [Nat.toDigits_of_base_le (by decide) (by omega), List.head?_append]
      have hrest := ih (n / 10) (by omega) (by omega)
      rw [decimal] at hrest
      cases h : Nat.toDigits 10 (n / 10) with
      | nil => exact absurd h Nat.toDigits_ne_nil
      | cons d ds =>
        rw [h] at hrest
        exact hrest

/-- So it is written as the grammar wants the digits before a point. -/
theorem isWhole_decimal (n : Nat) : IsWhole (decimal n) := by
  by_cases hn : n = 0
  · subst hn
    exact Or.inl rfl
  · exact Or.inr ⟨⟨Nat.toDigits_ne_nil, fun _ => isDigit_of_mem_decimal⟩, head_decimal hn⟩

/-- Appending digits never makes a number smaller, so what fits at the end has fitted all the way. -/
theorem le_ofDigitChars (n : Nat) (cs : List Char) : n ≤ Nat.ofDigitChars 10 cs n := by
  induction cs generalizing n with
  | nil => exact Nat.le_refl n
  | cons c cs ih =>
    rw [Nat.ofDigitChars_cons]
    have hle := ih (10 * n + (c.toNat - '0'.toNat))
    omega

/-- Digits whose number fits are all kept. -/
theorem fill_eq {n : Nat} {cs : List Char} (h : Nat.ofDigitChars 10 cs n < UInt64.size) :
    fill n cs = (Nat.ofDigitChars 10 cs n, []) := by
  induction cs generalizing n with
  | nil => rfl
  | cons c cs ih =>
    rw [Nat.ofDigitChars_cons, Nat.mul_comm] at h ⊢
    -- Further digits only make a number greater, so the part read so far is within the bound as well.
    have hle : n * 10 + (c.toNat - 0x30) < UInt64.size := Nat.lt_of_le_of_lt (le_ofDigitChars _ cs) h
    rw [fill]
    exact (if_pos hle).trans (ih h)

/-- **The digits of a number of 64 bits read as that number.** -/
theorem readNumber_decimal {n : Nat} (hn : n < UInt64.size) (negative : Bool) {rest : List Char}
    (hrest : Ends rest) : readNumber negative (decimal n ++ rest) = .ok (signed? negative n, rest) := by
  have hvalue : Nat.ofDigitChars 10 (decimal n) 0 = n := Nat.ofDigitChars_ten_toDigits
  have hfill : fill 0 (decimal n) = (n, []) := by
    rw [fill_eq (by rw [hvalue]; exact hn), hvalue]
  have hw := scanWhole_append .unfinished (isWhole_decimal n) hrest.noDigit
  rw [readNumber, scanNumber, hw]
  show (scanFraction .unfinished rest >>= _) >>= _ = _
  -- What may follow a value begins neither a fraction nor an exponent.
  rw [scanFraction_absent .unfinished fun hc => (hrest '.' hc).2.1 rfl]
  show (scanExponent .unfinished rest >>= _) >>= _ = _
  rw [scanExponent_absent .unfinished hrest]
  show (Digits.value ⟨decimal n, none, none⟩ negative >>= _) = _
  rw [Digits.value, hfill]
  rfl

end TextVault.Json
