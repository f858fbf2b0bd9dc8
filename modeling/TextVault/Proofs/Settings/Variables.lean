import TextVault.Proofs.Text.Blank
import TextVault.Proofs.Text.Numeral
import TextVault.Settings.Variables

/-
  Settings from variables, and what is wrong with them.

  Problem: five variables may each be set or not, and be spelled rightly or not, and the settings they give may
  still make no sense. An operator is told of one fault, and has to know that there is none before it.

  Program: `SpellsBool` and `SpellsNumber` say what a text stands for, blanks around it and the case of letters
  apart. `Overridden` are the settings that the variables give, and `Misspelt` what is wrong with one of them.

  Spec: a variable gives its setting (`boolVariable_eq_ok_iff`, `numberVariable_eq_ok_iff`) or is misspelt, never both.
  Reading stops at the first that is misspelt, which is a search through the five (`readVariables_eq_error_iff`);
  so which error wins is told by the order of `Variable.all` and by nothing else.
-/
namespace TextVault.Settings

open Text

/-! ## Letters of either case -/

/-- The letters of a word, each small or capital. -/
inductive AnyCase : List Char → List Char → Prop
  | nil : AnyCase [] []
  | cons {c l : Char} {cs word : List Char} (hc : c = l ∨ c = l.toUpper) (h : AnyCase cs word) :
      AnyCase (c :: cs) (l :: word)

/-- Lowering a capital letter adds the distance between the cases, and changes nothing else. -/
theorem toNat_toLower (c : Char) :
    c.toLower.toNat = if 0x41 ≤ c.toNat ∧ c.toNat ≤ 0x5A then c.toNat + 0x20 else c.toNat := by
  by_cases h : c.val ≥ 'A'.val ∧ c.val ≤ 'Z'.val
  · have hlower : c.toLower.val = c.val + 0x20 := congrArg Char.val (dif_pos h)
    have hle : c.val.toNat ≤ 0x5A := h.2
    have hrange : 0x41 ≤ c.toNat ∧ c.toNat ≤ 0x5A := h
    rw [if_pos hrange]
    show c.toLower.val.toNat = c.val.toNat + 0x20
    rw [hlower, UInt32.toNat_add]
    exact Nat.mod_eq_of_lt (Nat.lt_of_le_of_lt (Nat.add_le_add_right hle 0x20) (by decide))
  · have hlower : c.toLower = c := dif_neg h
    have hrange : ¬ (0x41 ≤ c.toNat ∧ c.toNat ≤ 0x5A) := h
    rw [hlower, if_neg hrange]

/-- The lower-case letters are those of ASCII. -/
theorem isLower_iff (c : Char) : c.isLower = true ↔ 0x61 ≤ c.toNat ∧ c.toNat ≤ 0x7A := by
  show (decide (c.val ≥ 'a'.val) && decide (c.val ≤ 'z'.val)) = true ↔ _
  rw [Bool.and_eq_true, decide_eq_true_iff, decide_eq_true_iff]
  exact Iff.rfl

/-- The capital of a letter stands a fixed way before it. -/
theorem toNat_toUpper {c : Char} (h : c.isLower = true) : c.toUpper.toNat + 0x20 = c.toNat := by
  have hrange := (isLower_iff c).mp h
  have hall : ∀ n < 26, (Char.ofNat (0x61 + n)).toUpper.toNat + 0x20 = 0x61 + n := by decide
  have hc := hall (c.toNat - 0x61) (by omega)
  rwa [Nat.add_sub_cancel' hrange.1, Char.ofNat_toNat] at hc

/-- A character lowers to a letter if it is the letter in either case. -/
theorem toLower_eq_iff {c l : Char} (hl : l.isLower = true) : c.toLower = l ↔ c = l ∨ c = l.toUpper := by
  have hrange := (isLower_iff l).mp hl
  have hupper := toNat_toUpper hl
  rw [← Char.toNat_inj, ← Char.toNat_inj, ← Char.toNat_inj, toNat_toLower]
  split
  · omega
  · omega

/-- **A text is a word of small letters in either case if its small letters are the word.** -/
theorem anyCase_iff {cs word : List Char} (hword : ∀ l ∈ word, l.isLower = true) :
    AnyCase cs word ↔ cs.map Char.toLower = word := by
  constructor
  · intro h
    induction h with
    | nil => rfl
    | @cons c l cs word hc _ ih =>
      have hl : c.toLower = l := (toLower_eq_iff (hword l List.mem_cons_self)).mpr hc
      rw [List.map_cons, hl, ih fun k hk => hword k (List.mem_cons_of_mem l hk)]
  · intro h
    induction cs generalizing word with
    | nil =>
      subst h
      exact .nil
    | cons c cs ih =>
      subst h
      refine .cons ?_ (ih (fun k hk => hword k (List.mem_cons_of_mem _ hk)) rfl)
      exact (toLower_eq_iff (hword _ List.mem_cons_self)).mp rfl

/-! ## What a text spells -/

/-- A truth value in small letters. -/
def boolWord : Bool → List Char
  | true => ['t', 'r', 'u', 'e']
  | false => ['f', 'a', 'l', 's', 'e']

/-- The text is the word for a truth value, in letters of either case and with blanks around it. -/
def SpellsBool (text : String) (b : Bool) : Prop :=
  ∃ letters, Padded letters text.toList ∧ AnyCase letters (boolWord b)

/-- The text is a numeral of that value, with blanks around it. -/
def SpellsNumber (text : String) (n : UInt64) : Prop :=
  ∃ numeral, Padded numeral text.toList ∧ IsNumeral numeral n.toNat

theorem isLower_boolWord (b : Bool) : ∀ l ∈ boolWord b, l.isLower = true := by
  rw [← List.all_eq_true]
  cases b with
  | true => decide
  | false => decide

/-- No letter of a truth value is blank, of either case. -/
theorem isBlank_of_anyCase_boolWord {letters : List Char} {b : Bool} (h : AnyCase letters (boolWord b)) :
    ∀ c ∈ letters, isBlank c = false := by
  have hword : (boolWord b).all fun l => !isBlank l && !isBlank l.toUpper := by
    cases b with
    | true => decide
    | false => decide
  simp only [List.all_eq_true, Bool.and_eq_true, Bool.not_eq_true'] at hword
  generalize boolWord b = word at h hword
  induction h with
  | nil => exact nofun
  | @cons c l cs word hc _ ih =>
    intro d hd
    obtain ⟨hsmall, hcapital⟩ := hword l List.mem_cons_self
    rcases List.mem_cons.mp hd with rfl | hd
    · rcases hc with rfl | rfl
      · exact hsmall
      · exact hcapital
    · exact ih (fun k hk => hword k (List.mem_cons_of_mem l hk)) d hd

/-- **A truth value is read exactly from its spelling**, in any case and with blanks around it. -/
theorem readBool?_eq_some_iff {text : String} {b : Bool} :
    readBool? text.toList = some b ↔ SpellsBool text b := by
  -- The reader lowers the trimmed letters and compares them with the two words.
  have hmap : readBool? text.toList = some b ↔ (trim text.toList).map Char.toLower = boolWord b := by
    rw [readBool?]
    split
    · next h =>
      rw [h]
      cases b with
      | true => simp [boolWord]
      | false => simp [boolWord]
    · next htrue =>
      split
      · next h =>
        rw [h]
        cases b with
        | true => simp [boolWord]
        | false => simp [boolWord]
      · next hfalse =>
        cases b with
        | true => exact ⟨nofun, fun h => absurd h htrue⟩
        | false => exact ⟨nofun, fun h => absurd h hfalse⟩
  -- Lowering to a lower-case word is being that word in any case.
  rw [hmap, ← anyCase_iff (isLower_boolWord b)]
  constructor
  · intro h
    exact ⟨_, padded_trim _, h⟩
  · rintro ⟨letters, hpadded, hcase⟩
    rwa [hpadded.trim_eq (isBlank_of_anyCase_boolWord hcase)]

/-- A number is read exactly from its spelling, also with blanks around it. -/
theorem readUInt64_trim_eq_ok_iff {text : String} {n : UInt64} :
    readUInt64 (trim text.toList) = .ok n ↔ SpellsNumber text n := by
  rw [readUInt64_eq_ok_iff]
  constructor
  · intro h
    exact ⟨_, padded_trim _, h⟩
  · rintro ⟨numeral, hpadded, hnumeral⟩
    rwa [hpadded.trim_eq hnumeral.isBlank_eq]

/-! ## The five variables -/

/-- The variables that settings are read from. -/
inductive Variable where
  | timeoutEnabled
  | timeoutMinutes
  | acceptAll
  | awaitingVerification
  | recordCapacity
  deriving DecidableEq

namespace Variable

/-- The name under which a variable is set. -/
def name : Variable → String
  | timeoutEnabled => timeoutEnabledName
  | timeoutMinutes => timeoutMinutesName
  | acceptAll => acceptAllName
  | awaitingVerification => awaitingVerificationName
  | recordCapacity => recordCapacityName

/-- A switch holds a truth value; the others hold numbers. -/
def IsSwitch : Variable → Prop
  | timeoutEnabled | acceptAll | awaitingVerification => True
  | timeoutMinutes | recordCapacity => False

instance : DecidablePred IsSwitch
  | timeoutEnabled | acceptAll | awaitingVerification => isTrue trivial
  | timeoutMinutes | recordCapacity => isFalse id

/-- All variables, in the order in which they are read. -/
def all : List Variable := [timeoutEnabled, timeoutMinutes, acceptAll, awaitingVerification, recordCapacity]

end Variable

/-- If a variable is set, it spells a value of its kind. -/
def Readable (lookup : Lookup) (v : Variable) : Prop :=
  ∀ raw, lookup v.name = some raw → if v.IsSwitch then ∃ b, SpellsBool raw b else ∃ n, SpellsNumber raw n

/-- A variable is set to a text that spells no value of its kind. The error names it, and tells what goes wrong
first with a number. -/
inductive Misspelt (lookup : Lookup) (v : Variable) : SettingError → Prop
  | switch {raw : String} (hkind : v.IsSwitch) (hraw : lookup v.name = some raw)
      (h : ∀ b, ¬ SpellsBool raw b) : Misspelt lookup v (.invalidBool v.name)
  | number {raw : String} {fault : NumeralFault} (hkind : ¬ v.IsSwitch) (hraw : lookup v.name = some raw)
      (h : IsFault (UInt64.size - 1) (trim raw.toList) fault) :
      Misspelt lookup v (.invalidInteger v.name fault)

/-- The error is that of the first variable that is misspelt. -/
def FirstMisspelt (lookup : Lookup) (e : SettingError) : Prop :=
  ∃ before v after, Variable.all = before ++ v :: after ∧ Misspelt lookup v e ∧
    ∀ w ∈ before, Readable lookup w

/-- What a variable spells if it is set, and the default if it is not. -/
def Given {α : Type} (spells : String → α → Prop) (default : α) : Option String → α → Prop
  | none, value => value = default
  | some raw, value => spells raw value

/-- The default settings with what the variables spell in place of the settings that they are for. -/
structure Overridden (lookup : Lookup) (s : Settings) : Prop where
  timeoutEnabled : Given SpellsBool ({} : Settings).lock.timeoutEnabled (lookup timeoutEnabledName)
    s.lock.timeoutEnabled
  timeoutMinutes : Given SpellsNumber ({} : Settings).lock.timeoutMinutes (lookup timeoutMinutesName)
    s.lock.timeoutMinutes
  acceptAll : Given SpellsBool ({} : Settings).intake.acceptAll (lookup acceptAllName) s.intake.acceptAll
  awaitingVerification : Given SpellsBool ({} : Settings).intake.awaitingVerification
    (lookup awaitingVerificationName) s.intake.awaitingVerification
  recordCapacity : Given SpellsNumber ({} : Settings).recordCapacity (lookup recordCapacityName)
    s.recordCapacity
  scale : s.scale = ({} : Settings).scale

/-! ## One variable -/

section Reading

variable {lookup : Lookup} {v : Variable} {e : SettingError} {s : Settings}

/-- What is wrong with a variable. -/
def Variable.fault? (lookup : Lookup) (v : Variable) : Option SettingError :=
  match lookup v.name with
  | none => none
  | some raw =>
    if v.IsSwitch then
      match readBool? raw.toList with
      | some _ => none
      | none => some (.invalidBool v.name)
    else
      match readUInt64 (trim raw.toList) with
      | .ok _ => none
      | .error fault => some (.invalidInteger v.name fault)

/-- What is found wrong with a variable is what is wrong with it. -/
theorem fault?_eq_some_iff : v.fault? lookup = some e ↔ Misspelt lookup v e := by
  rw [Variable.fault?]
  constructor
  · -- An absent variable has no fault, and one that is set is read by its kind.
    intro h
    split at h
    · cases h
    · next raw hraw =>
      split at h
      · next hkind =>
        split at h
        · cases h
        · next hread =>
          obtain rfl := Option.some.inj h
          refine .switch hkind hraw fun b hb => ?_
          rw [readBool?_eq_some_iff.mpr hb] at hread
          cases hread
      · next hkind =>
        split at h
        · cases h
        · next fault hread =>
          obtain rfl := Option.some.inj h
          exact .number hkind hraw (readUInt64_eq_error_iff.mp hread)
  · -- The raw text is there, and the reader of its kind refuses it.
    intro h
    cases h with
    | @switch raw hkind hraw h =>
      have hread : readBool? raw.toList = none := by
        cases hb : readBool? raw.toList with
        | none => rfl
        | some b => exact absurd (readBool?_eq_some_iff.mp hb) (h b)
      simp only [hraw, if_pos hkind, hread]
    | @number raw fault hkind hraw h =>
      simp only [hraw, if_neg hkind, readUInt64_eq_error_iff.mpr h]

/-- Nothing is wrong with a variable exactly if it can be read. -/
theorem fault?_eq_none_iff : v.fault? lookup = none ↔ Readable lookup v := by
  rw [Variable.fault?, Readable]
  cases lookup v.name with
  | none => exact ⟨fun _ => nofun, fun _ => rfl⟩
  | some raw =>
    simp only [Option.some.injEq, forall_eq', ← readBool?_eq_some_iff, ← readUInt64_trim_eq_ok_iff]
    split
    · cases readBool? raw.toList with
      | none => simp
      | some b => simp
    · cases readUInt64 (trim raw.toList) with
      | error fault => simp
      | ok n => simp

/-- A switch is read as what it spells, or as its default. -/
theorem boolVariable_eq_ok_iff {name : String} {default b : Bool} :
    boolVariable lookup name default = .ok b ↔ Given SpellsBool default (lookup name) b := by
  rw [boolVariable]
  cases lookup name with
  | none => exact ⟨fun h => (Except.ok.inj h).symm, fun h => congrArg Except.ok h.symm⟩
  | some raw =>
    show _ ↔ SpellsBool raw b
    rw [← readBool?_eq_some_iff]
    cases hread : readBool? raw.toList with
    | none => simp only [hread, reduceCtorEq]
    | some c => simp only [hread, Except.ok.injEq, Option.some.injEq]

/-- So is a number. -/
theorem numberVariable_eq_ok_iff {name : String} {default n : UInt64} :
    numberVariable lookup name default = .ok n ↔ Given SpellsNumber default (lookup name) n := by
  rw [numberVariable]
  cases lookup name with
  | none => exact ⟨fun h => (Except.ok.inj h).symm, fun h => congrArg Except.ok h.symm⟩
  | some raw =>
    show _ ↔ SpellsNumber raw n
    rw [← readUInt64_trim_eq_ok_iff]
    cases hread : readUInt64 (trim raw.toList) with
    | error fault => simp only [hread, reduceCtorEq]
    | ok m => simp only [hread, Except.ok.injEq]

/-- Reading a switch fails exactly if it is misspelt, and with the error that names it. -/
theorem boolVariable_eq_error_iff (hkind : v.IsSwitch) (default : Bool) :
    boolVariable lookup v.name default = .error e ↔ v.fault? lookup = some e := by
  rw [boolVariable, Variable.fault?]
  cases lookup v.name with
  | none => simp only [reduceCtorEq]
  | some raw =>
    cases hread : readBool? raw.toList with
    | none => simp only [if_pos hkind, hread, Except.error.injEq, Option.some.injEq]
    | some b => simp only [if_pos hkind, hread, reduceCtorEq]

/-- Reading a number fails likewise, with what goes wrong first in it. -/
theorem numberVariable_eq_error_iff (hkind : ¬ v.IsSwitch) (default : UInt64) :
    numberVariable lookup v.name default = .error e ↔ v.fault? lookup = some e := by
  rw [numberVariable, Variable.fault?]
  cases lookup v.name with
  | none => simp only [reduceCtorEq]
  | some raw =>
    cases hread : readUInt64 (trim raw.toList) with
    | error fault => simp only [if_neg hkind, hread, Except.error.injEq, Option.some.injEq]
    | ok n => simp only [if_neg hkind, hread, reduceCtorEq]

/-! ## All variables -/

/-- A chain of readings succeeds if each of them does. -/
theorem bind_eq_ok_iff {α β ε : Type} {x : Except ε α} {f : α → Except ε β} {b : β} :
    (x >>= f) = .ok b ↔ ∃ a, x = .ok a ∧ f a = .ok b := by
  cases x with
  | error e => exact ⟨nofun, nofun⟩
  | ok a =>
    constructor
    · intro h
      exact ⟨a, rfl, h⟩
    · rintro ⟨a', ha, h⟩
      obtain rfl := Except.ok.inj ha
      exact h

/-- Reading a variable and then others is searching it and then the others for a fault. -/
theorem bind_eq_error_iff {α β : Type} {x : Except SettingError α} {f : α → Except SettingError β}
    {vs : List Variable} (hx : ∀ e, x = .error e ↔ v.fault? lookup = some e)
    (hf : ∀ a, f a = .error e ↔ vs.findSome? (Variable.fault? lookup) = some e) :
    (x >>= f) = .error e ↔ (v :: vs).findSome? (Variable.fault? lookup) = some e := by
  rw [List.findSome?_cons]
  cases x with
  | error e' =>
    rw [(hx e').mp rfl]
    show Except.error e' = .error e ↔ some e' = some e
    rw [Except.error.injEq, Option.some.injEq]
  | ok a =>
    -- The first variable was read, so it has no fault and the search goes on behind it.
    have hnone : v.fault? lookup = none := by
      cases hfault : v.fault? lookup with
      | none => rfl
      | some e' => exact nomatch (hx e').mpr hfault
    rw [hnone]
    exact hf a

/-- **What is read are the settings that the variables give.** -/
theorem readVariables_eq_ok_iff : readVariables lookup = .ok s ↔ Overridden lookup s := by
  simp only [readVariables, bind_eq_ok_iff, boolVariable_eq_ok_iff, numberVariable_eq_ok_iff]
  constructor
  · rintro ⟨b₁, h₁, n₂, h₂, b₃, h₃, b₄, h₄, n₅, h₅, hs⟩
    obtain rfl := Except.ok.inj hs
    exact ⟨h₁, h₂, h₃, h₄, h₅, rfl⟩
  · rintro ⟨h₁, h₂, h₃, h₄, h₅, hscale⟩
    refine ⟨_, h₁, _, h₂, _, h₃, _, h₄, _, h₅, ?_⟩
    obtain ⟨lock, intake, scale, recordCapacity⟩ := s
    obtain rfl : scale = ({} : Settings).scale := hscale
    rfl

/-- Reading fails exactly if the search through all variables finds a fault, and with that fault. -/
theorem readVariables_eq_error_iff_search :
    readVariables lookup = .error e ↔ Variable.all.findSome? (Variable.fault? lookup) = some e := by
  refine bind_eq_error_iff (fun _ => boolVariable_eq_error_iff (v := .timeoutEnabled) trivial _) fun _ => ?_
  refine bind_eq_error_iff (fun _ => numberVariable_eq_error_iff (v := .timeoutMinutes) id _) fun _ => ?_
  refine bind_eq_error_iff (fun _ => boolVariable_eq_error_iff (v := .acceptAll) trivial _) fun _ => ?_
  refine bind_eq_error_iff (fun _ => boolVariable_eq_error_iff (v := .awaitingVerification) trivial _) fun _ => ?_
  refine bind_eq_error_iff (fun _ => numberVariable_eq_error_iff (v := .recordCapacity) id _) fun _ => ?_
  exact ⟨nofun, nofun⟩

/-- **What is told is the first fault.** -/
theorem readVariables_eq_error_iff : readVariables lookup = .error e ↔ FirstMisspelt lookup e := by
  rw [readVariables_eq_error_iff_search, List.findSome?_eq_some_iff, FirstMisspelt]
  simp only [fault?_eq_some_iff, fault?_eq_none_iff]

theorem mem_all (v : Variable) : v ∈ Variable.all := by
  cases v <;> decide

/-- **The variables give settings exactly if all of them can be read.** -/
theorem exists_overridden_iff : (∃ s, Overridden lookup s) ↔ ∀ v, Readable lookup v := by
  simp only [← readVariables_eq_ok_iff, ← fault?_eq_none_iff]
  constructor
  · rintro ⟨s, hs⟩ v
    -- Reading succeeds only if the search for a fault, variable after variable, finds none.
    have hsearch : Variable.all.findSome? (Variable.fault? lookup) = none := by
      rw [Option.eq_none_iff_forall_ne_some]
      intro e he
      rw [readVariables_eq_error_iff_search.mpr he] at hs
      cases hs
    exact List.findSome?_eq_none_iff.mp hsearch v (mem_all v)
  · intro h
    cases hread : readVariables lookup with
    | ok s => exact ⟨s, rfl⟩
    | error e =>
      rw [readVariables_eq_error_iff_search, List.findSome?_eq_none_iff.mpr fun v _ => h v] at hread
      cases hread

/-- The variables give one set of settings at most. -/
theorem Overridden.unique {s' : Settings} (h : Overridden lookup s) (h' : Overridden lookup s') : s' = s := by
  have hread := readVariables_eq_ok_iff.mpr h
  rw [readVariables_eq_ok_iff.mpr h'] at hread
  exact Except.ok.inj hread

/-- Nothing but the five variables is looked up. -/
theorem readVariables_congr {other : Lookup} (h : ∀ v : Variable, other v.name = lookup v.name) :
    readVariables other = readVariables lookup := by
  have h₁ : other timeoutEnabledName = lookup timeoutEnabledName := h .timeoutEnabled
  have h₂ : other timeoutMinutesName = lookup timeoutMinutesName := h .timeoutMinutes
  have h₃ : other acceptAllName = lookup acceptAllName := h .acceptAll
  have h₄ : other awaitingVerificationName = lookup awaitingVerificationName := h .awaitingVerification
  have h₅ : other recordCapacityName = lookup recordCapacityName := h .recordCapacity
  simp only [readVariables, boolVariable, numberVariable, h₁, h₂, h₃, h₄, h₅]

end Reading

/-! ## Settings that make sense -/

section Checking

variable {lookup : Lookup} {e : SettingError} {s : Settings}

/-- What is wrong with settings whose scale is in order: the interval, or else the cache. -/
theorem checked_eq_error_iff (hscale : s.scale.isOrdered = true) :
    s.checked = .error e ↔ s.lock.timeoutMinutes = 0 ∧ e = .zeroTimeout ∨
      s.lock.timeoutMinutes ≠ 0 ∧ s.recordCapacity = 0 ∧ e = .zeroCacheCapacity := by
  by_cases hminutes : s.lock.timeoutMinutes = 0
  · have hchecked : s.checked = .error .zeroTimeout := by
      rw [checked, check, if_pos hminutes]
      rfl
    rw [hchecked, Except.error.injEq]
    simp [hminutes, eq_comm]
  · by_cases hcapacity : s.recordCapacity = 0
    · have hchecked : s.checked = .error .zeroCacheCapacity := by
        rw [checked, check, if_neg hminutes, if_pos hcapacity]
        rfl
      rw [hchecked, Except.error.injEq]
      simp [hminutes, hcapacity, eq_comm]
    · have hchecked : s.checked = .ok s :=
        checked_eq_ok_iff.mpr ⟨rfl, (check_eq_ok_iff s).mpr ⟨hminutes, hcapacity, hscale⟩⟩
      rw [hchecked]
      simp [hminutes, hcapacity]

/-- **The settings are those that the variables spell, if they make sense.** -/
theorem ofVariables_eq_ok_iff :
    ofVariables lookup = .ok s ↔
      Overridden lookup s ∧ s.lock.timeoutMinutes ≠ 0 ∧ s.recordCapacity ≠ 0 := by
  simp only [ofVariables, bind_eq_ok_iff, readVariables_eq_ok_iff, checked_eq_ok_iff, check_eq_ok_iff]
  constructor
  · rintro ⟨s', hs', rfl, hminutes, hcapacity, -⟩
    exact ⟨hs', hminutes, hcapacity⟩
  · rintro ⟨hs, hminutes, hcapacity⟩
    refine ⟨s, hs, rfl, hminutes, hcapacity, ?_⟩
    rw [hs.scale]
    decide

/-- **And if there are none, the first misspelt variable is to blame**, or else a zero, of which that of the interval
comes first. -/
theorem ofVariables_eq_error_iff :
    ofVariables lookup = .error e ↔ FirstMisspelt lookup e ∨
      ∃ s, Overridden lookup s ∧ (s.lock.timeoutMinutes = 0 ∧ e = .zeroTimeout ∨
        s.lock.timeoutMinutes ≠ 0 ∧ s.recordCapacity = 0 ∧ e = .zeroCacheCapacity) := by
  rw [ofVariables, ← readVariables_eq_error_iff]
  simp only [← readVariables_eq_ok_iff]
  cases hread : readVariables lookup with
  | error e' =>
    show Except.error e' = .error e ↔ _
    simp only [reduceCtorEq, false_and, exists_false, or_false]
  | ok s =>
    -- No variable speaks of the scale, so it is the one of the defaults, which is in order.
    have hscale : s.scale.isOrdered = true := by
      rw [(readVariables_eq_ok_iff.mp hread).scale]
      decide
    show s.checked = .error e ↔ _
    rw [checked_eq_error_iff hscale]
    simp only [reduceCtorEq, false_or, Except.ok.injEq, exists_eq_left']

end Checking

/-- The five variables hold the settings as text: the truth values in letters of either case, the numbers in
decimal, and blanks around any of them. -/
structure Printed (lookup : Lookup) (s : Settings) : Prop where
  timeoutEnabled : ∃ raw, lookup timeoutEnabledName = some raw ∧ SpellsBool raw s.lock.timeoutEnabled
  timeoutMinutes : ∃ raw, lookup timeoutMinutesName = some raw ∧
    Padded (decimal s.lock.timeoutMinutes.toNat) raw.toList
  acceptAll : ∃ raw, lookup acceptAllName = some raw ∧ SpellsBool raw s.intake.acceptAll
  awaitingVerification : ∃ raw, lookup awaitingVerificationName = some raw ∧
    SpellsBool raw s.intake.awaitingVerification
  recordCapacity : ∃ raw, lookup recordCapacityName = some raw ∧
    Padded (decimal s.recordCapacity.toNat) raw.toList

/-- A variable that is set counts for what it spells. -/
theorem given_of_spells {α : Type} {spells : String → α → Prop} {default value : α} {raw? : Option String}
    (h : ∃ raw, raw? = some raw ∧ spells raw value) : Given spells default raw? value := by
  obtain ⟨raw, rfl, hspells⟩ := h
  exact hspells

/-- Variables with the text of some settings give these. -/
theorem Printed.overridden {lookup : Lookup} {s : Settings} (h : Printed lookup s) (hscale : s.scale = {}) :
    Overridden lookup s where
  timeoutEnabled := given_of_spells h.timeoutEnabled
  timeoutMinutes := by
    obtain ⟨raw, hraw, hpadded⟩ := h.timeoutMinutes
    exact given_of_spells ⟨raw, hraw, _, hpadded, isNumeral_decimal _⟩
  acceptAll := given_of_spells h.acceptAll
  awaitingVerification := given_of_spells h.awaitingVerification
  recordCapacity := by
    obtain ⟨raw, hraw, hpadded⟩ := h.recordCapacity
    exact given_of_spells ⟨raw, hraw, _, hpadded, isNumeral_decimal _⟩
  scale := hscale

/-- **Variables override the defaults, or the first fault is told.** There are settings exactly if every variable
that is set can be read and the interval and the cache are not zero; they are then the defaults with what is set
in place of them, and make sense. If not, the error is that of the first variable that is misspelt, and only if
none is, that of a zero interval, or else of a cache of no records; the scale is never at fault. No other variable
has a say. Settings with the default scale that make sense are read back from their text. -/
theorem variables_override (lookup : Lookup) :
    ((∃ s, ofVariables lookup = .ok s) ↔ (∀ v, Readable lookup v) ∧
      ∀ s, Overridden lookup s → s.lock.timeoutMinutes ≠ 0 ∧ s.recordCapacity ≠ 0) ∧
    (∀ s, ofVariables lookup = .ok s →
      Overridden lookup s ∧ (∀ s', Overridden lookup s' → s' = s) ∧ s.check = .ok ()) ∧
    (∀ e, ofVariables lookup = .error e ↔ FirstMisspelt lookup e ∨
      ∃ s, Overridden lookup s ∧ (s.lock.timeoutMinutes = 0 ∧ e = .zeroTimeout ∨
        s.lock.timeoutMinutes ≠ 0 ∧ s.recordCapacity = 0 ∧ e = .zeroCacheCapacity)) ∧
    (∀ scale, ofVariables lookup ≠ .error (.unorderedScale scale)) ∧
    (∀ other : Lookup, (∀ v : Variable, other v.name = lookup v.name) → ofVariables other = ofVariables lookup) ∧
    ∀ s, s.check = .ok () → s.scale = {} → Printed lookup s → ofVariables lookup = .ok s := by
  refine ⟨?_, fun s hs => ?_, fun e => ofVariables_eq_error_iff, fun scale hscale => ?_, fun other h => ?_,
    fun s hcheck hscale hprinted => ?_⟩
  · rw [← exists_overridden_iff]
    constructor
    · rintro ⟨s, hs⟩
      obtain ⟨hoverridden, hzero⟩ := ofVariables_eq_ok_iff.mp hs
      refine ⟨⟨s, hoverridden⟩, fun s' hs' => ?_⟩
      rw [hoverridden.unique hs']
      exact hzero
    · rintro ⟨⟨s, hs⟩, hzero⟩
      exact ⟨s, ofVariables_eq_ok_iff.mpr ⟨hs, hzero s hs⟩⟩
  · obtain ⟨hoverridden, hminutes, hcapacity⟩ := ofVariables_eq_ok_iff.mp hs
    refine ⟨hoverridden, fun s' hs' => hoverridden.unique hs', ?_⟩
    rw [check_eq_ok_iff, hoverridden.scale]
    exact ⟨hminutes, hcapacity, by decide⟩
  · rcases ofVariables_eq_error_iff.mp hscale with ⟨-, v, -, -, hv, -⟩ | ⟨s, -, hzero⟩
    · cases hv
    · rcases hzero with ⟨-, h⟩ | ⟨-, -, h⟩
      · cases h
      · cases h
  · -- What no variable of the table asks for is never read.
    rw [ofVariables, readVariables_congr h]
    rfl
  · obtain ⟨hminutes, hcapacity, -⟩ := (check_eq_ok_iff s).mp hcheck
    exact ofVariables_eq_ok_iff.mpr ⟨hprinted.overridden hscale, hminutes, hcapacity⟩

/-- An interval as long as 64 bits reach is read, blanks and capitals and all. One minute more is too long, and is
told of before the size of the cache, which is no number. -/
theorem variables_override_at_limit :
    let s : Settings := { lock := ⟨true, 18446744073709551615⟩, intake := ⟨false, true⟩, recordCapacity := 8 }
    let lookup (minutes capacity : String) : Lookup := fun name =>
      if name = timeoutEnabledName then some "\u3000TrUe"
      else if name = timeoutMinutesName then some minutes
      else if name = acceptAllName then some "FALSE\n"
      else if name = awaitingVerificationName then some "true"
      else if name = recordCapacityName then some capacity
      else none
    s.check = .ok () ∧ s.scale = {} ∧
    Printed (lookup "\t18446744073709551615 " " 8") s ∧
    ofVariables (lookup "\t18446744073709551615 " " 8") = .ok s ∧
    ofVariables (lookup "18446744073709551616" "-5") = .error (.invalidInteger timeoutMinutesName .tooLarge) := by
  intro s lookup
  have hblank : ∀ {core text : List Char}, trim text = core → Padded core text := by
    rintro core text rfl
    exact padded_trim text
  have hprinted : Printed (lookup "\t18446744073709551615 " " 8") s := by
    refine ⟨⟨_, rfl, ?_⟩, ⟨_, rfl, ?_⟩, ⟨_, rfl, ?_⟩, ⟨_, rfl, ?_⟩, ⟨_, rfl, ?_⟩⟩
    · exact readBool?_eq_some_iff.mp (by decide +kernel)
    · exact hblank (by decide +kernel)
    · exact readBool?_eq_some_iff.mp (by decide +kernel)
    · exact readBool?_eq_some_iff.mp (by decide +kernel)
    · exact hblank (by decide +kernel)
  have hcheck : s.check = .ok () := rfl
  have hread := (variables_override (lookup "\t18446744073709551615 " " 8")).2.2.2.2.2 s hcheck rfl hprinted
  have hfault : FirstMisspelt (lookup "18446744073709551616" "-5")
      (.invalidInteger timeoutMinutesName .tooLarge) := by
    refine ⟨[.timeoutEnabled], .timeoutMinutes, _, rfl, ?_, ?_⟩
    · exact .number id rfl (readUInt64_eq_error_iff.mp rfl)
    · intro w hw raw hraw
      obtain rfl := List.mem_singleton.mp hw
      obtain rfl := Option.some.inj hraw
      exact ⟨true, readBool?_eq_some_iff.mp (by decide +kernel)⟩
  have herror := ((variables_override (lookup "18446744073709551616" "-5")).2.2.1 _).mpr (.inl hfault)
  exact ⟨hcheck, rfl, hprinted, hread, herror⟩

end TextVault.Settings
