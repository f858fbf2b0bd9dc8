import TextVault.Text.Utf8

/-
  UTF-8 that is written is read back.

  Program: `String.toUTF8` gives a character one byte up to four, by the size of its number.

  Spec: a byte that continues a character carries six of its bits (`tailBits_tail`), and the first one says
  how many follow and carries the others (`lead_two`, `lead_three`, `lead_four`). The two ranges that the first
  of those is cut to, at either end of the numbers with three bytes or with four, leave out no character. So
  every text is read back from its bytes (`decode_toUTF8`).
-/
namespace TextVault.Text

/-- The byte that continues a character with the last six bits of a number. -/
def tail (n : Nat) : UInt8 := UInt8.ofNat (n % 64 + 128)

theorem toNat_tail (n : Nat) : (tail n).toNat = n % 64 + 128 := by
  rw [tail, UInt8.toNat_ofNat']
  omega

/-- A byte that continues a character gives back the six bits that it was made of. -/
theorem tailBits_tail (n : Nat) : tailBits (tail n) = n % 64 := by
  rw [tailBits, toNat_tail]
  omega

theorem within_iff {low high b : UInt8} :
    within low high b = true ↔ low.toNat ≤ b.toNat ∧ b.toNat ≤ high.toNat := by
  simp [within, UInt8.le_iff_toNat_le]

/-- And it lies in the range in which such bytes are looked for. -/
theorem within_tail (n : Nat) : within 0x80 0xBF (tail n) = true := by
  rw [within_iff, toNat_tail]
  show 128 ≤ _ ∧ _ ≤ 191
  omega

/-- A range cut off at an end holds the byte if the number is not beyond that end. -/
theorem within_cut {n : Nat} {p q : Prop} [Decidable p] [Decidable q] {low high : UInt8}
    (hlow : p → low.toNat ≤ n % 64 + 128) (hhigh : q → n % 64 + 128 ≤ high.toNat) :
    within (if p then low else 0x80) (if q then high else 0xBF) (tail n) = true := by
  obtain ⟨h80, hBF⟩ := within_iff.mp (within_tail n)
  rw [within_iff]
  constructor
  · split
    · rw [toNat_tail]
      exact hlow ‹p›
    · exact h80
  · split
    · rw [toNat_tail]
      exact hhigh ‹q›
    · exact hBF

/-! ## First bytes -/

/-- The first of two bytes. Its five bits are never so few that one byte would have done. -/
theorem lead_two {n : Nat} (hlow : 0xC2 ≤ n) (hhigh : n < 0xE0) :
    lead (UInt8.ofNat n) = .more 1 0x80 0xBF (n % 0x20) := by
  have hn : (UInt8.ofNat n).toNat = n := by
    rw [UInt8.toNat_ofNat']
    omega
  rw [lead, hn, if_neg (by omega), if_neg (by omega), if_pos hhigh]

/-- The first of three bytes. Two of them narrow the second byte down, to rule out what needs fewer bytes and the
surrogates. -/
theorem lead_three {n : Nat} (hlow : 0xE0 ≤ n) (hhigh : n < 0xF0) :
    lead (UInt8.ofNat n) =
      .more 2 (if n = 0xE0 then 0xA0 else 0x80) (if n = 0xED then 0x9F else 0xBF) (n % 0x10) := by
  have hn : (UInt8.ofNat n).toNat = n := by
    rw [UInt8.toNat_ofNat']
    omega
  rw [lead, hn, if_neg (by omega), if_neg (by omega), if_neg (by omega)]
  by_cases h0 : n = 0xE0
  · subst h0
    rfl
  · rw [if_neg h0, if_neg h0]
    by_cases hD : n = 0xED
    · rw [if_pos hD, if_pos hD]
    · rw [if_neg hD, if_neg hD, if_pos hhigh]

/-- The first of four bytes. The first and the last of them narrow the second byte down, for what needs fewer bytes
and what is no character. -/
theorem lead_four {n : Nat} (hlow : 0xF0 ≤ n) (hhigh : n ≤ 0xF4) :
    lead (UInt8.ofNat n) =
      .more 3 (if n = 0xF0 then 0x90 else 0x80) (if n = 0xF4 then 0x8F else 0xBF) (n % 0x08) := by
  have hn : (UInt8.ofNat n).toNat = n := by
    rw [UInt8.toNat_ofNat']
    omega
  rw [lead, hn, if_neg (by omega), if_neg (by omega), if_neg (by omega), if_neg (by omega),
    if_neg (by omega), if_neg (by omega)]
  by_cases h0 : n = 0xF0
  · subst h0
    rfl
  · rw [if_neg h0, if_neg h0]
    by_cases h4 : n = 0xF4
    · rw [if_neg (by omega), if_pos h4, if_pos h4]
    · rw [if_pos (by omega), if_neg h4]

/-! ## Characters -/

variable {bs : List UInt8} {cs : List Char}

/-- The last byte of a character. -/
theorem decodeFrom_last {read n bits : Nat} {low high : UInt8}
    (h : ∀ index, decodeFrom index none bs = .ok cs) (hin : within low high (tail n) = true)
    (index : Nat) :
    decodeFrom index (some ⟨read, 1, low, high, bits⟩) (tail n :: bs) =
      .ok (Char.ofNat (bits * 64 + n % 64) :: cs) := by
  rw [decodeFrom, if_pos hin, tailBits_tail]
  simp only [Nat.le_refl, if_true, h]
  rfl

/-- A byte of a character with more to come. -/
theorem decodeFrom_tail {read owed n bits : Nat} {low high : UInt8}
    (hin : within low high (tail n) = true) (index : Nat) :
    decodeFrom index (some ⟨read, owed + 2, low, high, bits⟩) (tail n :: bs) =
      decodeFrom index (some ⟨read + 1, owed + 1, 0x80, 0xBF, bits * 64 + n % 64⟩) bs := by
  rw [decodeFrom, if_pos hin, tailBits_tail]
  dsimp only
  rw [if_neg (by omega)]
  rfl

theorem toNat_valid (c : Char) : c.toNat < 0xD800 ∨ (0xDFFF < c.toNat ∧ c.toNat < 0x110000) := c.valid

/-- The bytes of a character by its number, in the four cases that the reader tells by the first byte. -/
theorem utf8EncodeChar_eq (c : Char) :
    String.utf8EncodeChar c =
      if c.toNat ≤ 0x7F then [UInt8.ofNat c.toNat]
      else if c.toNat ≤ 0x7FF then [UInt8.ofNat (c.toNat / 64 + 0xC0), tail c.toNat]
      else if c.toNat ≤ 0xFFFF then
        [UInt8.ofNat (c.toNat / 4096 + 0xE0), tail (c.toNat / 64), tail c.toNat]
      else
        [UInt8.ofNat (c.toNat / 262144 + 0xF0), tail (c.toNat / 4096), tail (c.toNat / 64),
          tail c.toNat] := by
  have hvalid := toNat_valid c
  rw [String.utf8EncodeChar]
  show (if c.toNat ≤ 0x7F then [UInt8.ofNat c.toNat]
    else if c.toNat ≤ 0x7FF then [UInt8.ofNat (c.toNat / 64 % 32 + 192), tail c.toNat]
    else if c.toNat ≤ 0xFFFF then
      [UInt8.ofNat (c.toNat / 4096 % 16 + 224), tail (c.toNat / 64), tail c.toNat]
    else [UInt8.ofNat (c.toNat / 262144 % 8 + 240), tail (c.toNat / 4096), tail (c.toNat / 64),
      tail c.toNat]) = _
  -- The bits that are cut off the first byte are not there.
  split
  · rfl
  split
  · rw [Nat.mod_eq_of_lt (by omega)]
  split
  · rw [Nat.mod_eq_of_lt (by omega)]
  · rw [Nat.mod_eq_of_lt (by omega)]

/-- **A character is read back from its bytes**, with the text after it. -/
theorem decodeFrom_utf8EncodeChar (h : ∀ index, decodeFrom index none bs = .ok cs) (c : Char)
    (index : Nat) : decodeFrom index none (String.utf8EncodeChar c ++ bs) = .ok (c :: cs) := by
  have hvalid := toNat_valid c
  have hself (n : Nat) (hn : n = c.toNat) : Char.ofNat n = c := by rw [hn, Char.ofNat_toNat]
  rw [utf8EncodeChar_eq]
  -- One case for each number of bytes. Only the second byte has a range of its own.
  split
  · have hn : (UInt8.ofNat c.toNat).toNat = c.toNat := by
      rw [UInt8.toNat_ofNat']
      omega
    rw [List.singleton_append, decodeFrom, lead, hn, if_pos (by omega), Char.ofNat_toNat]
    simp only [h]
    rfl
  split
  · rw [List.cons_append, decodeFrom, lead_two (by omega) (by omega)]
    simp only [List.singleton_append]
    rw [decodeFrom_last h (within_tail _), hself _ (by omega)]
  split
  · rw [List.cons_append, decodeFrom, lead_three (by omega) (by omega)]
    have hin := within_cut (p := c.toNat / 4096 + 0xE0 = 0xE0) (q := c.toNat / 4096 + 0xE0 = 0xED)
      (fun _ => show (0xA0 : UInt8).toNat ≤ c.toNat / 64 % 64 + 128 by show 160 ≤ _; omega)
      (fun _ => show _ ≤ (0x9F : UInt8).toNat by show _ ≤ 159; omega)
    simp only [List.cons_append, List.nil_append]
    rw [decodeFrom_tail hin, decodeFrom_last h (within_tail _), hself _ (by omega)]
  · rw [List.cons_append, decodeFrom, lead_four (by omega) (by omega)]
    have hin := within_cut (p := c.toNat / 262144 + 0xF0 = 0xF0) (q := c.toNat / 262144 + 0xF0 = 0xF4)
      (fun _ => show (0x90 : UInt8).toNat ≤ c.toNat / 4096 % 64 + 128 by show 144 ≤ _; omega)
      (fun _ => show _ ≤ (0x8F : UInt8).toNat by show _ ≤ 143; omega)
    simp only [List.cons_append, List.nil_append]
    rw [decodeFrom_tail hin, decodeFrom_tail (within_tail _), decodeFrom_last h (within_tail _),
      hself _ (by omega)]

/-- The bytes of a text are those of its characters. -/
theorem toList_toUTF8 (s : String) : s.toUTF8.data.toList = s.toList.flatMap String.utf8EncodeChar := by
  rw [String.toUTF8, ← String.utf8Encode_toList, List.utf8Encode, List.toList_data_toByteArray]

/-- **A text is read back from its bytes.** -/
theorem decode_toUTF8 (s : String) : decode s.toUTF8.data.toList = .ok s.toList := by
  have hchars (cs : List Char) (index : Nat) :
      decodeFrom index none (cs.flatMap String.utf8EncodeChar) = .ok cs := by
    induction cs generalizing index with
    | nil => rw [List.flatMap_nil, decodeFrom]
    | cons c cs ih =>
      rw [List.flatMap_cons]
      exact decodeFrom_utf8EncodeChar (fun index => ih index) c index
  rw [toList_toUTF8, decode]
  exact hchars s.toList 0

end TextVault.Text
