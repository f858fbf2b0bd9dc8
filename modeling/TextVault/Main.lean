import TextVault.Console.Start

/-
  The command line: the console on the standard streams.

  Program: `main` reads the settings and then one line after another; answers go to the standard output
  and the log to the standard error. The clock of the vault follows the time in seconds.
-/
namespace TextVault

open Console

/-- Reads up to and with the next line feed; nothing at the end of the input. -/
partial def readLineBytes (input : IO.FS.Stream) (line : List UInt8) : IO (List UInt8) := do
  match (← input.read 1).toList with
  | [] => return line.reverse
  | b :: _ => if b = 10 then return (b :: line).reverse else readLineBytes input (b :: line)

/-- Writes what is said to the stream that it is for, line by line. -/
def say (lines : List Output) : IO Unit := do
  for line in lines do
    for text in answers [line] do IO.println text
  IO.eprint (String.ofList (logText lines))
  (← IO.getStdout).flush

/-- Lets the vault see how many seconds have passed since the start. -/
def follow (v : Vault) (startedAt : Nat) : IO Vault := do
  let (v, _, said) := passTime v (((← IO.monoMsNow) - startedAt) / 1000)
  say said
  return v

/-- Reads lines until the console stops, and shuts the vault down. -/
partial def serve (input : IO.FS.Stream) (startedAt : Nat) (v : Vault) : IO Unit := do
  let line ← readLineBytes input []
  let v ← follow v startedAt
  if line.isEmpty then
    say (finish v).2.2
  else
    let (outcome, v, _, said) := readLine v line
    say said
    match outcome with
    | .goOn => serve input startedAt v
    | .stop => say (finish v).2.2

/-- The bytes of a file, if it can be read. -/
def readFile (path : String) : IO (Option (List UInt8)) := do
  try return some (← IO.FS.readBinFile path).toList catch _ => return none

/-- The variables that the settings are read from. -/
def readVariables : IO Settings.Lookup := do
  let names := [Settings.timeoutEnabledName, Settings.timeoutMinutesName, Settings.acceptAllName,
    Settings.awaitingVerificationName, Settings.recordCapacityName]
  let found ← names.filterMapM fun name => return (← IO.getEnv name).map (name, ·)
  return fun name => found.lookup name

/-- The whole program: settings from the environment, lines from the standard input, and the exit code. -/
def serveConsole : IO UInt32 := do
  let file ← (← IO.getEnv fileVariable).mapM fun path =>
    return SettingsFile.mk path (← readFile path)
  match start file (← readVariables) with
  | .error fault =>
    IO.eprint fault.report
    return 1
  | .ok v =>
    serve (← IO.getStdin) (← IO.monoMsNow) v
    return 0

end TextVault

def main : IO UInt32 := TextVault.serveConsole
