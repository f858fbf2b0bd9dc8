import TextVault.Message.Mask
import TextVault.Text.Blank
import TextVault.Text.Numeral
import TextVault.Text.Start

/-
  Commands of the console.

  Problem: an operator types one command a line, as words with blanks between them.

  Program: the first word chooses the command and the next ones are its arguments. What is left is
  ignored, but for the commands that take a body: there it is the body, with single spaces between its
  words. `Command.ofLine` gives a command, nothing for a blank line, or a `Refusal`.

  Spec: a line is looked at through its words only, so the number and the kind of the blanks do not
  matter. The name of a command and its switches are told by case.
-/
namespace TextVault.Console

open Text Message

/-- What an operator can ask for, with the arguments read. -/
inductive Command where
  /-- Installs a credential with the bytes of the secret. -/
  | unlock (secret : String)
  | lock
  | showSurface
  | hideSurface
  | sms (origin body : String)
  | verify (on : Bool)
  | acceptAll (on : Bool)
  | timeoutOff
  | timeout (minutes : UInt64)
  | classify (mask : TypeMask) (status : Int32) (plaintext : Bool) (body : String)
  | status
  | quit
  deriving DecidableEq, Repr

/-- The commands that take arguments. -/
inductive Form where
  | unlock
  | sms
  | verify
  | acceptAll
  | timeout
  | classify
  deriving DecidableEq, Repr

/-- How a command is to be typed. -/
def Form.usage : Form → String
  | unlock => "unlock <secret>"
  | sms => "sms <origin> <body>"
  | verify => "verify on|off"
  | acceptAll => "accept-all on|off"
  | timeout => "timeout off|<minutes>"
  | classify => "classify <mask> <status> <plaintext> <body>"

/-- Why a line is no command. -/
inductive Refusal where
  | usage (form : Form)
  | unknown (word : String)
  deriving DecidableEq, Repr

/-- What the operator is told: how the command is to be typed, or that there is none of this name. -/
def Refusal.message : Refusal → String
  | usage form => "usage: " ++ form.usage
  | unknown word => "unknown command: " ++ word

/-! ## Arguments -/

/-- The position of a switch. -/
def readSwitch? : List Char → Option Bool
  | ['o', 'n'] => some true
  | ['o', 'f', 'f'] => some false
  | _ => none

/-- A truth value, spelled as a program spells it and not as a switch. -/
def readTruth? : List Char → Option Bool
  | ['t', 'r', 'u', 'e'] => some true
  | ['f', 'a', 'l', 's', 'e'] => some false
  | _ => none

/-- A type word in decimal digits, or in hexadecimal ones after `0x`. -/
def readMask? (cs : List Char) : Option TypeMask :=
  let bits := match dropStart? ['0', 'x'] cs with
    | some digits => readHex64 digits
    | none => readUInt64 cs
  bits.toOption.map TypeMask.mk

/-- An interval of at least one minute. -/
def readMinutes? (cs : List Char) : Option UInt64 :=
  (readUInt64 cs).toOption.filter (0 < ·)

/-! ## Lines -/

/-- A command whose only argument is a switch. -/
def ofSwitch (form : Form) (command : Bool → Command) : List (List Char) → Except Refusal Command
  | w :: _ =>
    match readSwitch? w with
    | some on => .ok (command on)
    | none => .error (.usage form)
  | [] => .error (.usage form)

/-- The timeout takes `off` or a number of minutes. No minutes at all is not a number that it takes. -/
def ofTimeout : List (List Char) → Except Refusal Command
  | ['o', 'f', 'f'] :: _ => .ok .timeoutOff
  | w :: _ =>
    match readMinutes? w with
    | some minutes => .ok (.timeout minutes)
    | none => .error (.usage .timeout)
  | [] => .error (.usage .timeout)

/-- A body to be classified, with its type word, its status and whether it is plain. All three are read before the
body, and any of them that cannot be read makes the line wrong. -/
def ofClassify : List (List Char) → Except Refusal Command
  | mask :: status :: plaintext :: body =>
    match readMask? mask, (readInt32 status).toOption, readTruth? plaintext with
    | some mask, some status, some plaintext =>
      .ok (.classify mask status plaintext (String.ofList (unwords body)))
    | _, _, _ => .error (.usage .classify)
  | _ => .error (.usage .classify)

/-- The command of a word and its arguments. -/
def Command.ofWords (command : String) (arguments : List (List Char)) : Except Refusal Command :=
  match command with
  | "unlock" =>
    match arguments with
    | secret :: _ => .ok (.unlock (String.ofList secret))
    | [] => .error (.usage .unlock)
  | "lock" => .ok .lock
  | "show" => .ok .showSurface
  | "hide" => .ok .hideSurface
  | "sms" =>
    match arguments with
    -- The words of the body are put together again with one blank between them.
    | origin :: body => .ok (.sms (String.ofList origin) (String.ofList (unwords body)))
    | [] => .error (.usage .sms)
  | "verify" => ofSwitch .verify .verify arguments
  | "accept-all" => ofSwitch .acceptAll .acceptAll arguments
  | "timeout" => ofTimeout arguments
  | "classify" => ofClassify arguments
  | "status" => .ok .status
  | "quit" | "exit" => .ok .quit
  | other => .error (.unknown other)

/-- The command of a line; a blank line has none. -/
def Command.ofLine (line : List Char) : Except Refusal (Option Command) :=
  match words line with
  | [] => .ok none
  | command :: arguments => (ofWords (String.ofList command) arguments).map some

example : Command.ofLine " timeout  +5 soon".toList = .ok (some (.timeout 5)) := rfl
example : Command.ofLine "classify 0x14 -1 true a  b".toList =
    .ok (some (.classify ⟨20⟩ (-1) true "a b")) := rfl
example : Command.ofLine "verify ON".toList = .error (.usage .verify) := rfl

end TextVault.Console
