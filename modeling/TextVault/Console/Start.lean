import TextVault.Console.Basic
import TextVault.Settings.File
import TextVault.Settings.Variables

/-
  Starting the console.

  Problem: the console takes its settings from a file, if one is named, and else from variables, and
  says why when it cannot start.

  Program: `start` gives a vault or a `Fault`; `play` is a whole session on one input, with the code
  that the process exits with.

  Spec: a file that is named is the only source, and the variables are not looked at then. Whichever it is,
  the settings are checked before a vault is made of them.
-/
namespace TextVault.Console

/-- A named file and its bytes, if it is there. -/
structure SettingsFile where
  path : String
  content : Option (List UInt8)
  deriving DecidableEq, Repr

/-- The name of the variable that names the file. -/
def fileVariable : String := "SMS_TRUST_CONFIG"

/-- The settings, from the file if one is named. -/
def readSettings (file : Option SettingsFile) (lookup : Settings.Lookup) : Except Fault Settings :=
  match file with
  | some file => (Settings.ofFile file.content).mapError fun e => ⟨.file file.path, e⟩
  | none => (Settings.ofVariables lookup).mapError fun e => ⟨.variables, e⟩

/-- A vault with the settings. -/
def start (file : Option SettingsFile) (lookup : Settings.Lookup) : Except Fault Vault :=
  (readSettings file lookup).map Vault.ofSettings

/-- What a session leaves behind. -/
structure Transcript where
  exitCode : UInt32
  answers : List String
  /-- The text of the log, with the ends of its lines. -/
  log : String
  deriving DecidableEq, Repr

/-- A session on one input. -/
def play (file : Option SettingsFile) (lookup : Settings.Lookup) (input : List UInt8) :
    Transcript :=
  match start file lookup with
  | .error fault => { exitCode := 1, answers := [], log := fault.report }
  | .ok v =>
    let (_, _, lines) := run v (splitLines input)
    { exitCode := 0, answers := answers lines, log := String.ofList (logText lines) }

end TextVault.Console
