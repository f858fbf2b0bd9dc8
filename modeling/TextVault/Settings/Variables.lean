import TextVault.Settings.Basic
import TextVault.Text.Blank

/-
  Settings from variables.

  Problem: an operator sets some variables in the environment of the process.

  Program: five variables override five settings. A value is trimmed first; a truth value is `true` or
  `false` in letters of any ASCII case, and a number is an unsigned numeral of 64 bits.

  Spec: the variables are read in a fixed order and the first that cannot be read is the error; only if
  all can be are the settings checked.
-/
namespace TextVault.Settings

open Text

/-- The value of each variable that is set. -/
abbrev Lookup := String → Option String

/-- The variable names. -/
def timeoutEnabledName : String := "PASSPHRASE_TIMEOUT_ENABLED"

/-- The variable of the interval, in minutes. -/
def timeoutMinutesName : String := "PASSPHRASE_TIMEOUT_MINUTES"

/-- The variable of the switch that claims every payload. -/
def acceptAllName : String := "ACCEPT_ALL_SMS"

/-- The variable that tells whether a registration waits for a code. -/
def awaitingVerificationName : String := "VERIFYING_STATE"

/-- The variable of the number of records that are kept for sharing. -/
def recordCapacityName : String := "RECORD_CACHE_SIZE"

/-- The truth value that a text spells. -/
def readBool? (cs : List Char) : Option Bool :=
  let cs := (trim cs).map Char.toLower
  if cs = ['t', 'r', 'u', 'e'] then some true
  else if cs = ['f', 'a', 'l', 's', 'e'] then some false
  else none

/-- A truth value, or the given one if the variable is not set. -/
def boolVariable (lookup : Lookup) (name : String) (default : Bool) :
    Except SettingError Bool :=
  match lookup name with
  | none => .ok default
  | some raw =>
    match readBool? raw.toList with
    | some b => .ok b
    | none => .error (.invalidBool name)

/-- A number, or the given one if the variable is not set. -/
def numberVariable (lookup : Lookup) (name : String) (default : UInt64) :
    Except SettingError UInt64 :=
  match lookup name with
  | none => .ok default
  | some raw =>
    match readUInt64 (trim raw.toList) with
    | .ok n => .ok n
    | .error fault => .error (.invalidInteger name fault)

/-- The settings that the variables give, not yet checked. -/
def readVariables (lookup : Lookup) : Except SettingError Settings := do
  let d : Settings := {}
  let timeoutEnabled ← boolVariable lookup timeoutEnabledName d.lock.timeoutEnabled
  let timeoutMinutes ← numberVariable lookup timeoutMinutesName d.lock.timeoutMinutes
  let acceptAll ← boolVariable lookup acceptAllName d.intake.acceptAll
  let awaitingVerification ←
    boolVariable lookup awaitingVerificationName d.intake.awaitingVerification
  let recordCapacity ← numberVariable lookup recordCapacityName d.recordCapacity
  return {
    lock := { timeoutEnabled, timeoutMinutes }
    intake := { acceptAll, awaitingVerification }
    scale := d.scale
    recordCapacity }

/-- The settings that the variables give. -/
def ofVariables (lookup : Lookup) : Except SettingError Settings := do
  (← readVariables lookup).checked

end TextVault.Settings
