import TextVault.Intake.Challenge
import TextVault.Proofs.Text.Utf8

/-
  The grammar of registration challenges.

  Problem: to take a code too readily swallows somebody's message, and to take it too seldom leaves a
  registration waiting. The code is cut at the first hyphen before anybody asks whether its parts are digits.

  Program: `IsGroup` and `IsChallenge` are the grammar: the wording, three or four ASCII digits, a hyphen, and
  three or four ASCII digits.

  Spec: no digit is a hyphen, so the first hyphen of a challenge is the one of the grammar
  (`joinGroups?_append`), and what is cut there joins to a code exactly if it is two groups
  (`joinGroups?_eq_some_iff`). Whether a group is measured in characters or in bytes makes no difference
  (`isGroup_iff_bytes`), as every byte of a character that has more than one is out of the range of digits.
-/
namespace TextVault.Intake

open Text

/-- Three or four ASCII digits. -/
def IsGroup (group : String) : Prop :=
  (group.length = 3 ∨ group.length = 4) ∧ ∀ c ∈ group.toList, '0' ≤ c ∧ c ≤ '9'

/-- The wording and two groups with a hyphen between them, and nothing else. -/
structure IsChallenge (body first second : String) : Prop where
  isGroup_first : IsGroup first
  isGroup_second : IsGroup second
  body_eq : body = challengeWording ++ first ++ "-" ++ second

/-! ## Groups -/

/-- The digits are the characters between zero and nine. -/
theorem isDigit_iff_le (c : Char) : isDigit c = true ↔ '0' ≤ c ∧ c ≤ '9' := isDigit_iff c

/-- Groups are counted by characters. -/
theorem isCodeGroup_iff (cs : List Char) : isCodeGroup cs = true ↔ IsGroup (String.ofList cs) := by
  have hlength : (3 ≤ cs.length ∧ cs.length ≤ 4) ↔ (cs.length = 3 ∨ cs.length = 4) := by omega
  simp only [isCodeGroup, IsGroup, String.length_ofList, String.toList_ofList, Bool.and_eq_true,
    decide_eq_true_eq, List.all_eq_true, isDigit_iff_le, hlength]

/-- No digit is a hyphen. -/
theorem ne_hyphen_of_isCodeGroup {cs : List Char} (h : isCodeGroup cs = true) :
    ∀ c ∈ cs, (c != '-') = true := by
  intro c hc
  have hdigit := ((isCodeGroup_iff cs).mp h).2 c (by rwa [String.toList_ofList])
  rw [bne_iff_ne]
  rintro rfl
  exact absurd hdigit.1 (by decide)

/-! ## Two groups -/

variable {first second cs code : List Char}

/-- A text is cut at its first hyphen. -/
theorem joinGroups?_append (h : ∀ c ∈ first, (c != '-') = true) (second : List Char) :
    joinGroups? (first ++ '-' :: second) =
      if isCodeGroup first && isCodeGroup second then some (first ++ second) else none := by
  have htake : (first ++ '-' :: second).takeWhile (· != '-') = first := by
    rw [List.takeWhile_append_of_pos h, List.takeWhile_cons_of_neg (by decide), List.append_nil]
  have hdrop : (first ++ '-' :: second).dropWhile (· != '-') = '-' :: second := by
    rw [List.dropWhile_append_of_pos h, List.dropWhile_cons_of_neg (by decide)]
  rw [joinGroups?, htake, hdrop]

/-- **A text joins to a code exactly if it is two groups.** -/
theorem joinGroups?_eq_some_iff :
    joinGroups? cs = some code ↔ ∃ first second, cs = first ++ '-' :: second ∧
      isCodeGroup first = true ∧ isCodeGroup second = true ∧ code = first ++ second := by
  constructor
  · intro h
    have hcut := List.takeWhile_append_dropWhile (p := (· != '-')) (l := cs)
    have hfirst : ∀ c ∈ cs.takeWhile (· != '-'), (c != '-') = true := fun c hc =>
      List.all_eq_true.mp List.all_takeWhile c hc
    cases hback : cs.dropWhile (· != '-') with
    | nil =>
      rw [joinGroups?, hback] at h
      nomatch h
    | cons c second =>
      -- What is left starts with the hyphen that ended the first part.
      have hhyphen : c = '-' := by
        have := List.head?_dropWhile_not (· != '-') cs
        rw [hback] at this
        simpa using this
      rw [hback, hhyphen] at hcut
      rw [← hcut, joinGroups?_append hfirst] at h
      refine ⟨_, second, hcut.symm, ?_⟩
      split at h
      · rename_i hgroups
        obtain ⟨hone, htwo⟩ := Bool.and_eq_true_iff.mp hgroups
        exact ⟨hone, htwo, (Option.some.inj h).symm⟩
      · nomatch h
  · rintro ⟨first, second, rfl, hfirst, hsecond, rfl⟩
    rw [joinGroups?_append (ne_hyphen_of_isCodeGroup hfirst), hfirst, hsecond]
    rfl

/-- Two groups are told apart in one way. -/
theorem groups_unique {first second first' second' : List Char}
    (h : first ++ '-' :: second = first' ++ '-' :: second') (hfirst : isCodeGroup first = true)
    (hfirst' : isCodeGroup first' = true) : first = first' ∧ second = second' := by
  have htake := congrArg (List.takeWhile (· != '-')) h
  rw [List.takeWhile_append_of_pos (ne_hyphen_of_isCodeGroup hfirst),
    List.takeWhile_append_of_pos (ne_hyphen_of_isCodeGroup hfirst'),
    List.takeWhile_cons_of_neg (by decide), List.takeWhile_cons_of_neg (by decide), List.append_nil,
    List.append_nil] at htake
  subst htake
  exact ⟨rfl, (List.cons.inj (List.append_cancel_left h)).2⟩

/-! ## Bytes -/

/-- The byte of an ASCII digit. -/
def IsDigitByte (b : UInt8) : Prop := 0x30 ≤ b ∧ b ≤ 0x39

/-- As bytes they are the same range. -/
theorem isDigitByte_iff (n : Nat) (h : n < 256) : IsDigitByte (UInt8.ofNat n) ↔ 0x30 ≤ n ∧ n ≤ 0x39 := by
  have hn : (UInt8.ofNat n).toNat = n := by rw [UInt8.toNat_ofNat', Nat.mod_eq_of_lt h]
  rw [IsDigitByte, UInt8.le_iff_toNat_le, UInt8.le_iff_toNat_le, hn]
  rfl

/-- A digit is one byte, which is its number. -/
theorem utf8EncodeChar_of_isDigit {c : Char} (h : isDigit c = true) :
    String.utf8EncodeChar c = [UInt8.ofNat c.toNat] := by
  have hdigit := (isDigit_iff c).mp h
  rw [utf8EncodeChar_eq, if_pos (by omega)]

/-- **A character is a digit exactly if all its bytes are.** -/
theorem forall_isDigitByte_iff (c : Char) :
    (∀ b ∈ String.utf8EncodeChar c, IsDigitByte b) ↔ isDigit c = true := by
  have hvalid := toNat_valid c
  constructor
  · intro h
    rw [isDigit_iff]
    -- The first byte tells: that of a longer character is none of a digit.
    rw [utf8EncodeChar_eq] at h
    repeat' split at h
    all_goals
      have hfirst := (isDigitByte_iff _ (by omega)).mp (h _ List.mem_cons_self)
      omega
  · intro h b hb
    have hdigit := (isDigit_iff c).mp h
    rw [utf8EncodeChar_of_isDigit h, List.mem_singleton] at hb
    rw [hb, isDigitByte_iff _ (by omega)]
    exact hdigit

/-- So a text of digits has as many bytes as characters. -/
theorem length_bytes_of_isDigit {cs : List Char} (h : ∀ c ∈ cs, isDigit c = true) :
    (cs.flatMap String.utf8EncodeChar).length = cs.length := by
  induction cs with
  | nil => rfl
  | cons c cs ih =>
    rw [List.flatMap_cons, utf8EncodeChar_of_isDigit (h c List.mem_cons_self), List.singleton_append,
      List.length_cons, List.length_cons, ih fun d hd => h d (List.mem_cons_of_mem c hd)]

/-- **A group may as well be measured in bytes.** -/
theorem isGroup_iff_bytes (group : String) :
    IsGroup group ↔
      (group.toUTF8.data.toList.length = 3 ∨ group.toUTF8.data.toList.length = 4) ∧
        ∀ b ∈ group.toUTF8.data.toList, IsDigitByte b := by
  have hdigits : (∀ b ∈ group.toUTF8.data.toList, IsDigitByte b) ↔ ∀ c ∈ group.toList, isDigit c = true := by
    rw [toList_toUTF8, List.forall_mem_flatMap]
    simp only [forall_isDigitByte_iff]
  rw [hdigits, IsGroup]
  simp only [← isDigit_iff_le]
  refine and_congr_left fun h => ?_
  rw [toList_toUTF8, length_bytes_of_isDigit h, String.length_toList]

/-! ## Challenges -/

/-- **The wording and two groups of digits around a hyphen** are all that a body needs to be a challenge, and nothing
may follow. -/
theorem isChallenge_iff {body first second : String} :
    IsChallenge body first second ↔
      body.toList = challengeWording.toList ++ (first.toList ++ '-' :: second.toList) ∧
        isCodeGroup first.toList = true ∧ isCodeGroup second.toList = true := by
  have hbody : body = challengeWording ++ first ++ "-" ++ second ↔
      body.toList = challengeWording.toList ++ (first.toList ++ '-' :: second.toList) := by
    rw [← String.toList_inj]
    simp only [String.toList_append, List.append_assoc]
    rfl
  rw [isCodeGroup_iff, isCodeGroup_iff, String.ofList_toList, String.ofList_toList, ← hbody]
  constructor
  · rintro ⟨hfirst, hsecond, hbody⟩
    exact ⟨hbody, hfirst, hsecond⟩
  · rintro ⟨hbody, hfirst, hsecond⟩
    exact ⟨hfirst, hsecond, hbody⟩

/-- **A code is read exactly from what the grammar has.** -/
theorem challengeCode?_eq_some_iff {body code : String} :
    challengeCode? body = some code ↔
      ∃ first second, IsChallenge body first second ∧ code = first ++ second := by
  unfold challengeCode?
  simp only [Option.bind_eq_bind, Option.bind_eq_some_iff, dropStart?_eq_some_iff, Option.pure_def,
    Option.some.injEq]
  constructor
  · rintro ⟨rest, hrest, cs, hcs, rfl⟩
    -- Behind the start, the two groups with a hyphen between them are all that is left of the body.
    obtain ⟨first, second, rfl, hfirst, hsecond, rfl⟩ := joinGroups?_eq_some_iff.mp hcs
    refine ⟨String.ofList first, String.ofList second, isChallenge_iff.mpr ?_, String.ofList_append⟩
    rw [String.toList_ofList, String.toList_ofList]
    exact ⟨hrest, hfirst, hsecond⟩
  · rintro ⟨first, second, h, rfl⟩
    obtain ⟨hbody, hfirst, hsecond⟩ := isChallenge_iff.mp h
    refine ⟨_, hbody, _, joinGroups?_eq_some_iff.mpr ⟨_, _, rfl, hfirst, hsecond, rfl⟩, ?_⟩
    rw [← String.toList_append, String.ofList_toList]

/-- **A code is read from a body exactly if the grammar has it there.** The body is the wording, three or four
ASCII digits, a hyphen, and three or four ASCII digits, with nothing before or behind; the code is all digits
of both groups, and no body has two pairs of groups. The groups may as well be measured in bytes. -/
theorem challengeCode_iff (body code : String) :
    (challengeCode? body = some code ↔
      ∃ first second, IsChallenge body first second ∧ code = first ++ second) ∧
    (∀ first second first' second', IsChallenge body first second → IsChallenge body first' second' →
      first = first' ∧ second = second') ∧
    ∀ group, IsGroup group ↔
      (group.toUTF8.data.toList.length = 3 ∨ group.toUTF8.data.toList.length = 4) ∧
        ∀ b ∈ group.toUTF8.data.toList, IsDigitByte b := by
  refine ⟨challengeCode?_eq_some_iff, fun first second first' second' h h' => ?_, isGroup_iff_bytes⟩
  obtain ⟨hbody, hfirst, -⟩ := isChallenge_iff.mp h
  obtain ⟨hbody', hfirst', -⟩ := isChallenge_iff.mp h'
  have hgroups := List.append_cancel_left (hbody.symm.trans hbody')
  obtain ⟨hone, htwo⟩ := groups_unique hgroups hfirst hfirst'
  exact ⟨String.toList_injective hone, String.toList_injective htwo⟩

/-- A body with its two groups, and one with a digit of three bytes for a group. -/
theorem challengeCode_iff_groups :
    let body := "Your TextSecure verification code: 123-4567"
    let wide := "Your TextSecure verification code: \uff11-4567"
    IsChallenge body "123" "4567" ∧ challengeCode? body = some "1234567" ∧
    (∀ first second, IsChallenge body first second → first = "123" ∧ second = "4567") ∧
    ∀ first second, ¬ IsChallenge wide first second := by
  intro body wide
  have hgroups : IsChallenge body "123" "4567" :=
    isChallenge_iff.mpr ⟨by decide +kernel, by decide +kernel, by decide +kernel⟩
  refine ⟨hgroups, (challengeCode_iff body "1234567").1.mpr ⟨_, _, hgroups, by decide +kernel⟩,
    fun first second h => ?_, fun first second h => ?_⟩
  · exact (challengeCode_iff body "").2.1 _ _ _ _ h hgroups
  · have hcode := (challengeCode_iff wide (first ++ second)).1.mpr ⟨first, second, h, rfl⟩
    rw [show challengeCode? wide = none by decide +kernel] at hcode
    nomatch hcode

end TextVault.Intake
