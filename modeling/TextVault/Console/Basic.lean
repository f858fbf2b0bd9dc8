import TextVault.Console.Command
import TextVault.Console.Report
import TextVault.Text.Utf8
import TextVault.Vault.Basic

/-
  The console.

  Problem: an operator drives one vault by typed lines, until the lines end, one of them is not text, or
  the command to stop comes; then the vault is shut down.

  Program: `react` does one command; `readLine` takes the end off a line (`lineContent`) and finds its
  command first. `run` does all lines of an input, and `splitLines` cuts the input after each line
  feed. Each gives the acts of the vault apart from what is said on the two streams.

  Spec: cutting loses nothing (`flatten_splitLines`), and nothing after the command to stop, or after
  a line that is not text, has any effect (`run_cons_of_stop`).
-/
namespace TextVault.Console

open Text Message Intake

/-! ## Commands -/

/-- The warnings among the acts of the vault. -/
def warningLines (acts : List Act) : List Output :=
  (warnings acts).map fun w => .log .warning .keyCache w.message

/-- Does an operation of the key cache. -/
def onKeys (v : Vault) (op : KeyCache.Op) : Vault × List Act × List Output :=
  let (v, acts) := v.onKeys op
  (v, acts, warningLines acts)

/-- How the vault stands. -/
def statusText (v : Vault) : String :=
  "credential=" ++ truthText v.keys.credential.isSome ++
    " surfaces=" ++ String.ofList (decimal v.keys.surfaces) ++
    " timeout_armed=" ++ truthText v.keys.isArmed ++
    " policy=" ++ policyText v.keys.policy ++
    " intake=" ++ switchesText v.switches

/-- Does a command; gives the acts of the vault and what is said. -/
def react (v : Vault) : Command → Vault × List Act × List Output
  | .unlock secret =>
    let (c, keys) := v.keys.createCredential secret.toUTF8.toList
    onKeys { v with keys } (.install c)
  | .lock => onKeys v .evict
  | .showSurface => onKeys v .showSurface
  | .hideSurface => onKeys v .hideSurface
  | .sms origin body =>
    let (v, disposition, acts) := v.receive (.single origin body)
    (v, acts, [.answer (label disposition)])
  | .verify on => (v.setAwaitingVerification on, [], [])
  | .acceptAll on => (v.setAcceptAll on, [], [])
  | .timeoutOff => onKeys v (.setPolicy v.keys.policy.off)
  | .timeout minutes => onKeys v (.setPolicy (.after minutes))
  | .classify mask status plaintext body =>
    (v, [], [.answer (classificationText (v.classifier.classify mask status plaintext body))])
  | .status => (v, [], [.answer (statusText v)])
  | .quit => (v, [], [])

/-- Lets the clock of the vault reach the given second, and what is due happen. -/
def passTime (v : Vault) (second : Nat) : Vault × List Act × List Output :=
  onKeys v (.advance (v.keys.clock.ticks second - v.keys.clock.now))

/-! ## Lines -/

/-- What follows a line. -/
inductive Outcome where
  | goOn
  | stop
  deriving DecidableEq, Repr

/-- A line without its end, which is a line feed and a carriage return right before it. -/
def lineContent (line : List UInt8) : List UInt8 :=
  match line.reverse with
  | 10 :: 13 :: bytes => bytes.reverse
  | 10 :: bytes => bytes.reverse
  | _ => line

example : lineContent [0xC3, 13, 10] = [0xC3] := by decide
example : lineContent [0xC3, 13] = [0xC3, 13] := by decide

/-- Does the command of a line, which is given in bytes with the end of the line. -/
def readLine (v : Vault) (line : List UInt8) : Outcome × Vault × List Act × List Output :=
  match Text.decode (lineContent line) with
  | .error fault =>
    (.stop, v, [], [.log .error .console ("Failed to read stdin: " ++ fault.message)])
  | .ok cs =>
    match Command.ofLine cs with
    | .error refusal => (.goOn, v, [], [.log .warning .console refusal.message])
    | .ok none => (.goOn, v, [], [])
    | .ok (some .quit) => (.stop, v, [], [])
    | .ok (some command) => (.goOn, react v command)

/-- Shuts the vault down. -/
def finish (v : Vault) : Vault × List Act × List Output :=
  let (v, acts) := v.shutdown
  (v, acts, warningLines acts)

/-- Does the lines one after another, as long as they go on; gives all acts and all that is said. -/
def run (v : Vault) : List (List UInt8) → Vault × List Act × List Output
  | [] => finish v
  | line :: lines =>
    match readLine v line with
    -- What comes after a stop is not read.
    | (.stop, v, acts, said) =>
      let (v, moreActs, moreSaid) := finish v
      (v, acts ++ moreActs, said ++ moreSaid)
    | (.goOn, v, acts, said) =>
      let (v, moreActs, moreSaid) := run v lines
      (v, acts ++ moreActs, said ++ moreSaid)

/-- The line that ends a session is the last one looked at, whatever else the input holds. -/
theorem run_cons_of_stop {v : Vault} {line : List UInt8} (h : (readLine v line).1 = .stop)
    (xs ys : List (List UInt8)) : run v (line :: xs) = run v (line :: ys) := by
  match hr : readLine v line with
  | (.stop, _, _, _) => simp only [run, hr]
  | (.goOn, _, _, _) => rw [hr] at h; cases h

/-- The lines of an input, each with the line feed that ends it. -/
def splitLines : List UInt8 → List (List UInt8)
  | [] => []
  | b :: bs =>
    if b = 10 then [b] :: splitLines bs
    else
      match splitLines bs with
      | [] => [[b]]
      | line :: lines => (b :: line) :: lines

/-- The lines of an input are the input, cut into pieces: each byte is in one line, in its place. -/
theorem flatten_splitLines (input : List UInt8) : (splitLines input).flatten = input := by
  fun_induction splitLines input <;> simp_all

end TextVault.Console
