import TextVault.Intake.Verdict
import TextVault.Json.Value
import TextVault.Key.Policy
import TextVault.Message.Delivery
import TextVault.Text.Numeral

/-
  The settings of the vault.

  Problem: a vault runs without any settings at all, and refuses to run with settings that make no sense.

  Program: every setting has a default. `Settings.check` refuses an interval of zero, a cache of no
  records and a status scale out of order, in this turn.

  Spec: `SettingError` is what can be wrong, with its message and, where another fault is behind it,
  the message of that.
-/
namespace TextVault

open Text

/-- All that an operator can choose. -/
structure Settings where
  lock : LockPolicy := {}
  intake : Intake.Switches := {}
  scale : Message.StatusScale := {}
  recordCapacity : UInt64 := 40
  deriving DecidableEq, Repr

/-- Why a file of settings could not be read. -/
inductive FileFault where
  | missing
  | notText
  deriving DecidableEq, Repr

/-- What the operating system and the decoding of text say about a file that gives no settings. -/
def FileFault.message : FileFault → String
  | missing => "No such file or directory (os error 2)"
  | notText => "stream did not contain valid UTF-8"

/-- What is said about a text that is no JSON of the settings. -/
def Json.Fault.message : Json.Fault → String
  | unfinished => "the text ends inside a value"
  | malformed => "the text is not well formed"
  | mismatched => "the value is not of the expected shape"

/-- What is wrong with the settings. -/
inductive SettingError where
  | invalidBool (name : String)
  | invalidInteger (name : String) (fault : NumeralFault)
  | zeroTimeout
  | zeroCacheCapacity
  | unorderedScale (s : Message.StatusScale)
  | file (fault : FileFault)
  | json (fault : Json.Fault)
  deriving DecidableEq, Repr

namespace SettingError

/-- What is wrong with a text that should be a truth value. -/
def boolFault : String := "provided string was not \x60true\x60 or \x60false\x60"

/-- The message of the fault behind the error. -/
def source? : SettingError → Option String
  | invalidBool _ => some boolFault
  | invalidInteger _ fault => some fault.message
  | file fault => some fault.message
  | json fault => some fault.message
  | _ => none

private def int32Text (n : Int32) : String := String.ofList (decimalInt n.toInt)

/-- The text of an error, with the name of the variable or the values that are at fault. -/
def message : SettingError → String
  | invalidBool name => "Invalid boolean in " ++ name ++ ": " ++ boolFault
  | invalidInteger name fault => "Invalid integer in " ++ name ++ ": " ++ fault.message
  | zeroTimeout => "Passphrase timeout interval must be greater than zero"
  | zeroCacheCapacity => "Record cache capacity must be greater than zero"
  | unorderedScale s =>
    "Delivery status thresholds out of order: none=" ++ int32Text s.unreported ++
      ", pending=" ++ int32Text s.pending ++ ", failed=" ++ int32Text s.failed
  | file fault => "Problem from std::io library: " ++ fault.message
  | json fault => "JSON processing error: " ++ fault.message

end SettingError

/-- Refuses settings that make no sense. -/
def Settings.check (s : Settings) : Except SettingError Unit :=
  if s.lock.timeoutMinutes = 0 then .error .zeroTimeout
  else if s.recordCapacity = 0 then .error .zeroCacheCapacity
  else if !s.scale.isOrdered then .error (.unorderedScale s.scale)
  else .ok ()

/-- Settings that make sense. -/
def Settings.checked (s : Settings) : Except SettingError Settings := s.check.map fun _ => s

/-- Settings make sense exactly if there is a time to wait, room for a record, and an order of the cutoffs. -/
theorem Settings.check_eq_ok_iff (s : Settings) :
    s.check = .ok () ↔
      s.lock.timeoutMinutes ≠ 0 ∧ s.recordCapacity ≠ 0 ∧ s.scale.isOrdered = true := by
  unfold check
  split
  · simp [*]
  · split
    · simp [*]
    · split <;> simp_all

/-- Checking settings changes nothing about them: they pass as they are or not at all. -/
theorem Settings.checked_eq_ok_iff {s s' : Settings} : s.checked = .ok s' ↔ s' = s ∧ s'.check = .ok () := by
  unfold checked
  constructor
  · intro h
    cases hcheck : s.check with
    | error e =>
      rw [hcheck] at h
      cases h
    | ok u =>
      rw [hcheck] at h
      obtain rfl := Except.ok.inj h
      exact ⟨rfl, hcheck⟩
  · rintro ⟨rfl, hcheck⟩
    rw [hcheck]
    rfl

end TextVault
