import TextVault.Proofs.Json.Number
import TextVault.Text.Blank

/-
  What is a numeral, and what is wrong with one that is none.

  Problem: a numeral is read from left to right and the reader stops at the first thing that is wrong, so what is
  said of it hangs on where its value gets too large.

  Program: `IsNumeral` is the grammar of unsigned numerals with their value, and `IsFault` says what goes wrong
  first: no digits at all, a character that is no digit, or a digit that makes the value too large.

  Spec: `readUInt64` reads the numerals whose value fits in 64 bits, and tells of every other text what goes
  wrong first (`readUInt64_eq_ok_iff`, `readUInt64_eq_error_iff`). The value of digits never falls as they are
  read (`le_ofDigitChars`), so no digits fit whose front does not.
-/
namespace TextVault.Text

open Json (SomeDigits le_ofDigitChars isDigit_of_mem_decimal)

/-! ## The grammar -/

/-- A numeral and its value: digits, perhaps after a plus sign. -/
inductive IsNumeral : List Char → Nat → Prop
  | plain {ds : List Char} (h : SomeDigits ds) : IsNumeral ds (Nat.ofDigitChars 10 ds 0)
  | signed {ds : List Char} (h : SomeDigits ds) : IsNumeral ('+' :: ds) (Nat.ofDigitChars 10 ds 0)

/-- What goes wrong first with digits that follow others of value `acc`. -/
inductive GoesWrong (limit acc : Nat) : List Char → NumeralFault → Prop
  | noDigit (before after : List Char) {c : Char} (hbefore : ∀ d ∈ before, isDigit d = true)
      (hle : Nat.ofDigitChars 10 before acc ≤ limit) (hc : isDigit c = false) :
      GoesWrong limit acc (before ++ c :: after) .invalidDigit
  | tooLarge (before after : List Char) {c : Char} (hbefore : ∀ d ∈ before, isDigit d = true)
      (hle : Nat.ofDigitChars 10 before acc ≤ limit) (hc : isDigit c = true)
      (hlt : limit < Nat.ofDigitChars 10 (before ++ [c]) acc) :
      GoesWrong limit acc (before ++ c :: after) .tooLarge

/-- What is wrong with the part of a numeral behind its sign. -/
inductive IsMagnitudeFault (limit : Nat) : List Char → NumeralFault → Prop
  | missing : IsMagnitudeFault limit [] .invalidDigit
  | wrong {cs : List Char} {fault : NumeralFault} (h : GoesWrong limit 0 cs fault) :
      IsMagnitudeFault limit cs fault

/-- What is wrong with a text that should be an unsigned numeral. -/
inductive IsFault (limit : Nat) : List Char → NumeralFault → Prop
  | empty : IsFault limit [] .empty
  | plain {cs : List Char} {fault : NumeralFault} (hne : cs ≠ []) (hsign : cs.head? ≠ some '+')
      (h : IsMagnitudeFault limit cs fault) : IsFault limit cs fault
  | signed {cs : List Char} {fault : NumeralFault} (h : IsMagnitudeFault limit cs fault) :
      IsFault limit ('+' :: cs) fault

/-! ## Digits -/

theorem digitIn?_of_isDigit {c : Char} (h : isDigit c = true) : digitIn? 10 c = some (c.toNat - '0'.toNat) := by
  have hrange := (isDigit_iff c).mp h
  have hlt : c.toNat - 0x30 < 10 := by omega
  simp only [digitIn?, digitValue?, if_pos hrange, Option.filter_some, decide_eq_true hlt]
  rfl

theorem digitIn?_of_not_isDigit {c : Char} (h : isDigit c = false) : digitIn? 10 c = none := by
  rw [← Option.not_isSome_iff_eq_none]
  exact Bool.eq_false_iff.mp h

theorem isBlank_of_isDigit {c : Char} (h : isDigit c = true) : isBlank c = false := by
  have hrange := (isDigit_iff c).mp h
  simp only [isBlank, Bool.or_eq_false_iff, Bool.and_eq_false_iff, decide_eq_false_iff_not, beq_eq_false_iff_ne]
  omega

section Digits

variable {limit acc n : Nat} {cs before : List Char} {c : Char} {fault : NumeralFault}

theorem ofDigitChars_singleton (acc : Nat) (c : Char) :
    Nat.ofDigitChars 10 [c] acc = acc * 10 + (c.toNat - '0'.toNat) := by
  rw [Nat.ofDigitChars_cons, Nat.ofDigitChars_nil, Nat.mul_comm]

/-- The value of digits is that of the first, and then of the others behind it. -/
theorem ofDigitChars_first (acc : Nat) (c : Char) (cs : List Char) :
    Nat.ofDigitChars 10 (c :: cs) acc = Nat.ofDigitChars 10 cs (Nat.ofDigitChars 10 [c] acc) :=
  Nat.ofDigitChars_append (l := [c]) acc

/-- A digit that keeps the value within the limit is read, and reading goes on from the new value. -/
theorem readDigits_of_fits (hc : isDigit c = true) (hle : Nat.ofDigitChars 10 [c] acc ≤ limit) (cs : List Char) :
    readDigits 10 limit acc (c :: cs) = readDigits 10 limit (Nat.ofDigitChars 10 [c] acc) cs := by
  rw [ofDigitChars_singleton] at hle ⊢
  rw [readDigits, digitIn?_of_isDigit hc]
  exact if_pos hle

/-- One that does not ends the reading, whatever stands behind it. -/
theorem readDigits_of_tooLarge (hc : isDigit c = true) (hlt : limit < Nat.ofDigitChars 10 [c] acc)
    (cs : List Char) : readDigits 10 limit acc (c :: cs) = .error .tooLarge := by
  rw [ofDigitChars_singleton] at hlt
  rw [readDigits, digitIn?_of_isDigit hc]
  exact if_neg (Nat.not_le.mpr hlt)

theorem readDigits_of_not_isDigit (hc : isDigit c = false) (cs : List Char) :
    readDigits 10 limit acc (c :: cs) = .error .invalidDigit := by
  rw [readDigits, digitIn?_of_not_isDigit hc]

/-- **Digits whose value fits are read one after another.** -/
theorem readDigits_append (hbefore : ∀ d ∈ before, isDigit d = true)
    (hle : Nat.ofDigitChars 10 before acc ≤ limit) (rest : List Char) :
    readDigits 10 limit acc (before ++ rest) =
      readDigits 10 limit (Nat.ofDigitChars 10 before acc) rest := by
  induction before generalizing acc with
  | nil => rfl
  | cons d before ih =>
    rw [ofDigitChars_first] at hle ⊢
    have hfits : Nat.ofDigitChars 10 [d] acc ≤ limit := Nat.le_trans (le_ofDigitChars _ before) hle
    rw [List.cons_append, readDigits_of_fits (hbefore d List.mem_cons_self) hfits]
    exact ih (fun e he => hbefore e (List.mem_cons_of_mem d he)) hle

/-- What goes wrong with the rest goes wrong with the whole. -/
theorem GoesWrong.cons (hc : isDigit c = true) (hle : Nat.ofDigitChars 10 [c] acc ≤ limit)
    (h : GoesWrong limit (Nat.ofDigitChars 10 [c] acc) cs fault) : GoesWrong limit acc (c :: cs) fault := by
  -- The digits before the fault are one more.
  have hdigits : ∀ {before : List Char}, (∀ d ∈ before, isDigit d = true) →
      ∀ d ∈ c :: before, isDigit d = true := by
    intro before hbefore d hd
    rcases List.mem_cons.mp hd with rfl | hd
    · exact hc
    · exact hbefore d hd
  cases h with
  | noDigit before after hbefore hfits hd =>
    exact .noDigit (c :: before) after (hdigits hbefore) (by rw [ofDigitChars_first]; exact hfits) hd
  | tooLarge before after hbefore hfits hd hlt =>
    refine .tooLarge (c :: before) after (hdigits hbefore) ?_ hd ?_
    · rw [ofDigitChars_first]
      exact hfits
    · rw [List.cons_append, ofDigitChars_first]
      exact hlt

/-- Digits are read to the end, or something goes wrong on the way. -/
theorem readDigits_cases (hacc : acc ≤ limit) (cs : List Char) :
    ((∀ d ∈ cs, isDigit d = true) ∧ Nat.ofDigitChars 10 cs acc ≤ limit ∧
      readDigits 10 limit acc cs = .ok (Nat.ofDigitChars 10 cs acc)) ∨
    ∃ fault, GoesWrong limit acc cs fault ∧ readDigits 10 limit acc cs = .error fault := by
  induction cs generalizing acc with
  | nil => exact .inl ⟨nofun, hacc, rfl⟩
  | cons c cs ih =>
    cases hc : isDigit c with
    | false => exact .inr ⟨_, .noDigit [] cs nofun hacc hc, readDigits_of_not_isDigit hc cs⟩
    | true =>
      -- With this digit the number is too large already, or the rest decides.
      rcases Nat.lt_or_ge limit (Nat.ofDigitChars 10 [c] acc) with hlt | hle
      · exact .inr ⟨_, .tooLarge [] cs nofun hacc hc hlt, readDigits_of_tooLarge hc hlt cs⟩
      · rw [readDigits_of_fits hc hle, ofDigitChars_first]
        rcases ih hle with ⟨hdigits, hfits, hread⟩ | ⟨fault, hwrong, hread⟩
        · refine .inl ⟨fun d hd => ?_, hfits, hread⟩
          rcases List.mem_cons.mp hd with rfl | hd
          · exact hc
          · exact hdigits d hd
        · exact .inr ⟨fault, hwrong.cons hc hle, hread⟩

/-- **The fault that is reported is that of the first character that goes wrong.** -/
theorem GoesWrong.readDigits_eq (h : GoesWrong limit acc cs fault) :
    readDigits 10 limit acc cs = .error fault := by
  cases h with
  | noDigit _ _ hbefore hle hc => rw [readDigits_append hbefore hle, readDigits_of_not_isDigit hc]
  | tooLarge _ _ hbefore hle hc hlt =>
    rw [Nat.ofDigitChars_append] at hlt
    rw [readDigits_append hbefore hle, readDigits_of_tooLarge hc hlt]

/-! ## Magnitudes -/

theorem readMagnitude_of_ne_nil (h : cs ≠ []) : readMagnitude 10 limit cs = readDigits 10 limit 0 cs := by
  cases cs with
  | nil => exact absurd rfl h
  | cons c cs => rfl

theorem GoesWrong.ne_nil (h : GoesWrong limit acc cs fault) : cs ≠ [] := by
  cases h with
  | noDigit => exact List.append_ne_nil_of_right_ne_nil _ (List.cons_ne_nil _ _)
  | tooLarge => exact List.append_ne_nil_of_right_ne_nil _ (List.cons_ne_nil _ _)

/-- A numeral without its sign is read if it has a digit, has only digits, and stays within the limit. -/
theorem readMagnitude_eq_ok_iff :
    readMagnitude 10 limit cs = .ok n ↔ SomeDigits cs ∧ Nat.ofDigitChars 10 cs 0 = n ∧ n ≤ limit := by
  constructor
  · intro h
    have hne : cs ≠ [] := by
      rintro rfl
      cases h
    rw [readMagnitude_of_ne_nil hne] at h
    rcases readDigits_cases (Nat.zero_le limit) cs with ⟨hdigits, hle, hread⟩ | ⟨fault, -, hread⟩
    · rw [hread] at h
      obtain rfl := Except.ok.inj h
      exact ⟨⟨hne, hdigits⟩, rfl, hle⟩
    · rw [hread] at h
      cases h
  · rintro ⟨⟨hne, hdigits⟩, rfl, hle⟩
    have hread := readDigits_append hdigits hle []
    rw [List.append_nil] at hread
    rw [readMagnitude_of_ne_nil hne, hread]
    rfl

/-- Otherwise it is at fault in one way only. -/
theorem readMagnitude_eq_error_iff :
    readMagnitude 10 limit cs = .error fault ↔ IsMagnitudeFault limit cs fault := by
  constructor
  · intro h
    by_cases hne : cs = []
    · subst hne
      obtain rfl := Except.error.inj h
      exact .missing
    · rw [readMagnitude_of_ne_nil hne] at h
      rcases readDigits_cases (Nat.zero_le limit) cs with ⟨-, -, hread⟩ | ⟨fault', hwrong, hread⟩
      · rw [hread] at h
        cases h
      · rw [hread] at h
        obtain rfl := Except.error.inj h
        exact .wrong hwrong
  · intro h
    cases h with
    | missing => rfl
    | wrong h => rw [readMagnitude_of_ne_nil h.ne_nil, h.readDigits_eq]

/-! ## Signs -/

theorem readUnsigned_signed (cs : List Char) :
    readUnsigned 10 limit ('+' :: cs) = readMagnitude 10 limit cs := rfl

/-- Without a plus sign the whole text is the magnitude. -/
theorem readUnsigned_plain (hne : cs ≠ []) (hsign : cs.head? ≠ some '+') :
    readUnsigned 10 limit cs = readMagnitude 10 limit cs := by
  rw [readUnsigned.eq_def]
  split
  · exact absurd rfl hne
  · exact absurd rfl hsign
  · rfl

/-- Digits have no sign in front. -/
theorem head_ne_plus (h : SomeDigits cs) : cs.head? ≠ some '+' := by
  intro hplus
  have hdigit := h.2 '+' (List.mem_of_head? hplus)
  exact absurd hdigit (by decide)

/-- A text is empty, or has a plus sign, or has none. -/
theorem sign_cases (cs : List Char) :
    cs = [] ∨ (∃ ds, cs = '+' :: ds) ∨ (cs ≠ [] ∧ cs.head? ≠ some '+') := by
  cases cs with
  | nil => exact .inl rfl
  | cons c ds =>
    by_cases hc : c = '+'
    · exact .inr (.inl ⟨ds, by rw [hc]⟩)
    · exact .inr (.inr ⟨List.cons_ne_nil c ds, fun h => hc (Option.some.inj h)⟩)

/-- **A number is read exactly from its numerals**, within the limit. -/
theorem readUnsigned_eq_ok_iff :
    readUnsigned 10 limit cs = .ok n ↔ IsNumeral cs n ∧ n ≤ limit := by
  constructor
  · intro h
    -- Behind a sign, and without one, it is the digits that decide.
    rcases sign_cases cs with rfl | ⟨ds, rfl⟩ | ⟨hne, hsign⟩
    · cases h
    · rw [readUnsigned_signed] at h
      obtain ⟨hds, rfl, hle⟩ := readMagnitude_eq_ok_iff.mp h
      exact ⟨.signed hds, hle⟩
    · rw [readUnsigned_plain hne hsign] at h
      obtain ⟨hds, rfl, hle⟩ := readMagnitude_eq_ok_iff.mp h
      exact ⟨.plain hds, hle⟩
  · rintro ⟨hcs, hle⟩
    cases hcs with
    | plain hds =>
      rw [readUnsigned_plain hds.1 (head_ne_plus hds)]
      exact readMagnitude_eq_ok_iff.mpr ⟨hds, rfl, hle⟩
    | signed hds =>
      rw [readUnsigned_signed]
      exact readMagnitude_eq_ok_iff.mpr ⟨hds, rfl, hle⟩

/-- And everything else is at fault, in one way. -/
theorem readUnsigned_eq_error_iff :
    readUnsigned 10 limit cs = .error fault ↔ IsFault limit cs fault := by
  constructor
  · intro h
    -- The fault is that of the digits, behind the sign if there is one.
    rcases sign_cases cs with rfl | ⟨ds, rfl⟩ | ⟨hne, hsign⟩
    · obtain rfl := Except.error.inj h
      exact .empty
    · rw [readUnsigned_signed] at h
      exact .signed (readMagnitude_eq_error_iff.mp h)
    · rw [readUnsigned_plain hne hsign] at h
      exact .plain hne hsign (readMagnitude_eq_error_iff.mp h)
  · intro h
    cases h with
    | empty => rfl
    | plain hne hsign h =>
      rw [readUnsigned_plain hne hsign]
      exact readMagnitude_eq_error_iff.mpr h
    | signed h =>
      rw [readUnsigned_signed]
      exact readMagnitude_eq_error_iff.mpr h

end Digits

/-! ## Numerals of 64 bits -/

/-- **What is read is a numeral of that value.** -/
theorem readUInt64_eq_ok_iff {cs : List Char} {n : UInt64} :
    readUInt64 cs = .ok n ↔ IsNumeral cs n.toNat := by
  rw [readUInt64]
  constructor
  · intro h
    cases hread : readUnsigned 10 (UInt64.size - 1) cs with
    | error fault =>
      rw [hread] at h
      cases h
    | ok m =>
      rw [hread] at h
      obtain rfl := Except.ok.inj h
      obtain ⟨hnumeral, hle⟩ := readUnsigned_eq_ok_iff.mp hread
      -- Within the bound, the word holds the number itself.
      have hm : (UInt64.ofNat m).toNat = m := by
        rw [UInt64.toNat_ofNat']
        exact Nat.mod_eq_of_lt (by rw [UInt64.size] at hle; omega)
      rw [hm]
      exact hnumeral
  · intro h
    have hle : n.toNat ≤ UInt64.size - 1 := Nat.le_sub_one_of_lt n.toNat_lt_size
    rw [readUnsigned_eq_ok_iff.mpr ⟨h, hle⟩]
    exact congrArg Except.ok (UInt64.ofNat_toNat)

/-- **What is told of any other text is what goes wrong first.** -/
theorem readUInt64_eq_error_iff {cs : List Char} {fault : NumeralFault} :
    readUInt64 cs = .error fault ↔ IsFault (UInt64.size - 1) cs fault := by
  rw [readUInt64, ← readUnsigned_eq_error_iff]
  cases readUnsigned 10 (UInt64.size - 1) cs with
  | ok m => exact ⟨nofun, nofun⟩
  | error fault' =>
    constructor
    · intro h
      rw [Except.error.inj h]
    · intro h
      rw [Except.error.inj h]
      rfl

/-- What is written for a number is one of its numerals. -/
theorem isNumeral_decimal (n : Nat) : IsNumeral (decimal n) n := by
  have hdigits : SomeDigits (decimal n) := ⟨Nat.toDigits_ne_nil, fun _ => isDigit_of_mem_decimal⟩
  have hvalue : Nat.ofDigitChars 10 (decimal n) 0 = n := Nat.ofDigitChars_ten_toDigits
  have hnumeral := IsNumeral.plain hdigits
  rwa [hvalue] at hnumeral

/-- A numeral has no blanks. -/
theorem IsNumeral.isBlank_eq {cs : List Char} {n : Nat} (h : IsNumeral cs n) :
    ∀ c ∈ cs, isBlank c = false := by
  intro c hc
  cases h with
  | plain h => exact isBlank_of_isDigit (h.2 c hc)
  | signed h =>
    rcases List.mem_cons.mp hc with rfl | hc
    · decide
    · exact isBlank_of_isDigit (h.2 c hc)

end TextVault.Text
