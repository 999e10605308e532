/-
The command line program: the runner on the files, the environment and the
streams of the process.
-/
import ConsoleBoard.Runner.Session

namespace ConsoleBoard.Runner

/-- The file of settings, in the directory where the program runs. -/
def settingsFile : String := ".env"

/-- The text of a refused file access, without the path. -/
def reasonOf (e : IO.Error) : String :=
  match e with
  | .noFileOrDirectory _ code details =>
      details ++ " (os error " ++ toString code ++ ")"
  | _ => toString e

/-- The files of the process. -/
def processFiles : Files IO where
  read path := do
    try return .ok (← IO.FS.readBinFile path)
    catch e => return .error (reasonOf e)
  write path bytes := do
    try
      IO.FS.writeBinFile path bytes
      return .ok ()
    catch e => return .error (reasonOf e)

/-- The process as a host. Records for debugging are not shown. -/
def processHost : Host IO where
  toFiles := processFiles
  log record :=
    if record.level = .debug then return ()
    else IO.eprintln ("[" ++ record.level.name ++ " z80run] " ++ record.text)
  warn text := IO.eprintln text
  print bytes := do
    let out ← IO.getStdout
    out.write (ByteArray.mk bytes.toArray)
    out.flush

/-- The names of all variables that a run may ask for. -/
def variableNames (settings : List Setting) : List String :=
  configVariable :: framesVariable :: settings.flatMap fun setting =>
    setting.name :: setting.value.filterMap fun piece => match piece with
      | .variable name => some name
      | .char _ => none

/-- The variables of the process that have one of these names. -/
def processEnvironment (names : List String) : IO Environment := do
  let mut env : Environment := []
  for name in names do
    if let some text ← IO.getEnv name then env := env ++ [(name, text)]
  return env

end ConsoleBoard.Runner

open ConsoleBoard.Runner in
def main (args : List String) : IO UInt32 := do
  let settings ←
    try pure (some (← IO.FS.readFile settingsFile)) catch _ => pure none
  let names := variableNames ((settings.map Setting.read).getD ([], true)).1
  let outcome ← run processHost settings (← processEnvironment names) args
  match outcome with
  | .failed e => IO.eprintln ("Error: " ++ brief e)
  | .misused => IO.eprintln "Usage: z80run [OPTIONS] <IMAGE>"
  | .aborted => IO.eprintln "A setting holds the character NUL"
  | _ => pure ()
  return UInt32.ofNat outcome.code
