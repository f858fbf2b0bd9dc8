import TextVault.Intake.Verdict
import TextVault.Key.Policy
import TextVault.Message.Classifier
import TextVault.Settings.Basic
import TextVault.Text.Quoted
import TextVault.Text.Terminal

/-
  What the console says.

  Problem: answers go to one stream, and warnings and errors to another, each with the part of the
  program that speaks.

  Program: an `Output` is a line for either stream; `Fault.report` is what is said when the console does
  not start.

  Spec: a report names the fault and below it the faults behind it, with numbers if there are several.
  What an operator typed goes into the log without control sequences (`isPlain_of_mem_logText`).
-/
namespace TextVault.Console

open Text Message Intake

/-! ## Lines -/

/-- How bad it is. -/
inductive Level where
  | warning
  | error
  deriving DecidableEq, Repr

/-- How a level is written in a line of the log. -/
def Level.word : Level → String
  | warning => "WARN"
  | error => "ERROR"

/-- Who says it. -/
inductive Speaker where
  | console
  | keyCache
  deriving DecidableEq, Repr

/-- The name under which a part of the program writes to the log. -/
def Speaker.name : Speaker → String
  | console => "sms_trust"
  | keyCache => "sms_trust::keycache"

inductive Output where
  /-- An answer. -/
  | answer (text : String)
  /-- A line of the log. -/
  | log (level : Level) (speaker : Speaker) (text : String)
  deriving DecidableEq, Repr

/-- The answers among the lines. -/
def answers (lines : List Output) : List String :=
  lines.filterMap fun
    | .answer text => some text
    | .log .. => none

/-- A line as it stands in the log: its control sequences are gone, and with one that has no end the
end of the line. -/
def Output.logText : Output → List Char
  | .answer _ => []
  | .log level speaker text =>
    plain (level.word ++ " " ++ speaker.name ++ ": " ++ text ++ "\n").toList

/-- The log that the lines leave. -/
def logText (lines : List Output) : List Char := lines.flatMap Output.logText

/-- **Nobody's terminal obeys the log.** Whatever an operator has typed, the text of the log has no control characters
but blanks. -/
theorem isPlain_of_mem_logText {lines : List Output} {c : Char} (h : c ∈ logText lines) :
    isPlain c = true := by
  obtain ⟨line, -, hc⟩ := List.mem_flatMap.mp h
  cases line with
  | answer text => simp [Output.logText] at hc
  | log level speaker text => exact isPlain_of_mem_plain hc

/-! ## Answers -/

/-- A truth value as the console answers it. -/
def truthText (b : Bool) : String := if b then "true" else "false"

/-- A policy with its fields. -/
def policyText (p : LockPolicy) : String :=
  "LockPolicy \x7b timeout_enabled: " ++ truthText p.timeoutEnabled ++ ", timeout_minutes: " ++
    String.ofList (decimal p.timeoutMinutes.toNat) ++ " \x7d"

/-- The switches with their positions. -/
def switchesText (s : Switches) : String :=
  "IntakeConfig \x7b accept_all: " ++ truthText s.acceptAll ++ ", awaiting_verification: " ++
    truthText s.awaitingVerification ++ " \x7d"

/-- What is shown for a message. -/
def classificationText (c : Classification) : String :=
  label c.display ++ " delivery=" ++ label c.delivery ++ " emphasized=" ++
    truthText c.display.isEmphasized ++ " text=" ++ quote c.text

/-! ## Start-up -/

/-- Where the settings come from. -/
inductive Source where
  | file (path : String)
  | variables
  deriving DecidableEq, Repr

/-- Why the console does not start. -/
structure Fault where
  source : Source
  cause : SettingError
  deriving DecidableEq, Repr

namespace Fault

/-- Where the settings were looked for and what is wrong with them, in one line. -/
def message (f : Fault) : String :=
  match f.source with
  | .file path => "Failed to load config file: " ++ path
  | .variables => "Failed to read config from environment"

/-- The text that tells of the fault. -/
def report (f : Fault) : String :=
  let causes := match f.cause.source? with
    | none => "    " ++ f.cause.message ++ "\n"
    | some source => "    0: " ++ f.cause.message ++ "\n    1: " ++ source ++ "\n"
  "Error: " ++ f.message ++ "\n\nCaused by:\n" ++ causes

end Fault

end TextVault.Console
