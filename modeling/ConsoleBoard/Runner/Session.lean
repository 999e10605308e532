/-
A run of the program runner, from its arguments to its result. It acts
through its host: it reads files, logs and prints as it goes, and leaves the
rest of the world alone.
-/
import ConsoleBoard.Config.File
import ConsoleBoard.Runner.Cpm
import ConsoleBoard.Runner.Help
import ConsoleBoard.Runner.Terminal
import ConsoleBoard.Z80.Snapshot.Record

namespace ConsoleBoard.Runner

open Z80

/-- How grave a record is. -/
inductive Level
  | error | warn | info | debug
deriving DecidableEq

def Level.name : Level → String
  | error => "ERROR"
  | warn => "WARN"
  | info => "INFO"
  | debug => "DEBUG"

/-- A record of the log. -/
structure Record where
  level : Level
  text : String
deriving DecidableEq

/-- What a run acts through. -/
structure Host (m : Type → Type) extends Files m where
  log : Record → m Unit
  /-- Say something before there is a log. -/
  warn : String → m Unit
  print : List UInt8 → m Unit

/-- How a run ends. -/
inductive Outcome
  | finished
  | helped
  /-- The arguments make no sense. -/
  | misused
  | failed (e : Error)
  /-- A setting could not be made. -/
  | aborted
deriving DecidableEq

/-- The exit code of a program that ends so. -/
def Outcome.code : Outcome → Nat
  | finished => 0
  | helped => 0
  | misused => 2
  | failed _ => 1
  | aborted => 101

/-- The short form of an error, for the last line of a failed program. -/
def brief : Error → String
  | .config (.invalid fault) =>
    "Config(InvalidValue \x7b key: \"" ++ fault.key ++ "\", reason: \""
      ++ fault.reason ++ "\" \x7d)"
  | .config .malformed => "Config(Parse)"
  | .config .unreadable => "Config(Read)"
  | .config .unwritable => "Config(Serialize)"
  | .file => "File"
  | e => e.message

variable {m : Type → Type} [Monad m]

-- ================================================================= logging

def info (host : Host m) (text : String) : m Unit := host.log ⟨.info, text⟩

def debug (host : Host m) (text : String) : m Unit := host.log ⟨.debug, text⟩

def addressText (address : UInt16) : String :=
  "0x" ++ Text.hexUpper 4 address.toNat

-- ================================================================= running

/-- Run `left` frames; the first of them is number `i`. A core that has faulted
runs no further. -/
def runFrames (host : Host m) (bus : Bus FlatMemory) (budget : Nat)
    (irq : Bool) :
    (left i : Nat) → Machine → m Machine
  | 0, _, machine => return machine
  | left + 1, i, machine => do
    let machine := machine.frame bus budget irq
    if machine.z.cpu.faulted then
      host.log ⟨.warn, "Core faulted in frame " ++ toString i⟩
      return machine
    else
      debug host ("Frame " ++ toString i ++ " done, PC="
        ++ addressText machine.pc)
      runFrames host bus budget irq left (i + 1) machine

/-- Serve a call to the system. -/
def serve (host : Host m) (machine : Machine) : m Unit :=
  match Cpm.call machine with
  | .print bytes => host.print bytes
  | .unknown function =>
    debug host ("BDOS function " ++ toString function.toNat ++ " ignored")

/-- Run a CP/M program to its end, or for `limit` stretches of `limit` steps. -/
def runCpm (host : Host m) (bus : Bus FlatMemory) (limit : Nat) :
    Nat → Machine → m Machine
  | 0, machine => return machine
  | calls + 1, machine => do
    let machine := Cpm.advance bus limit machine
    if machine.pc = Cpm.warmBoot then return machine
    else
      if machine.pc = Cpm.systemEntry then serve host machine
      if machine.z.cpu.halted then
        host.log ⟨.warn,
          "HALT at " ++ addressText machine.pc ++ " with no interrupt source"⟩
        return machine
      else runCpm host bus limit calls (machine.step bus)

/-- More steps than a run can take. -/
def stepLimit : Nat := 4611686018427387904

/-- Run a loaded machine as the options say, and report. -/
def runMachine (host : Host m) (options : Options) (config : Config)
    (bus : Bus FlatMemory) (machine : Machine) : m Unit := do
  let machine ←
    if options.cpm then
      runCpm host bus stepLimit stepLimit (Cpm.prepare machine)
    else
      let budget := config.cyclesPerFrame
      info host ("Running " ++ toString options.frames ++ " frames of "
        ++ toString budget ++ " T-states")
      runFrames host bus budget options.irq options.frames 0 machine
  info host ("Total cycles: " ++ toString machine.z.clock.total)
  info host ("Final PC: " ++ addressText machine.pc)
  if options.json then
    host.print ((machine.z.snapshot.toJson.pretty 0 ++ "\n").toUTF8.toList)

-- ================================================================ starting

/-- The configuration that the options name, or the defaults. -/
def loadConfig (host : Host m) (options : Options) : m (Except Error Config) :=
  match options.config with
  | none => return .ok {}
  | some path => Config.load host.toFiles path

/-- The bytes of the program. -/
def loadImage (host : Host m) (options : Options) :
    m (Except Error (List UInt8)) := do
  match ← host.read options.image with
  | .ok bytes => return .ok bytes.toList
  | .error reason =>
    host.log ⟨.error, "Failed to read " ++ options.image ++ ": " ++ reason⟩
    return .error .file

/-- Put the program into a machine and run it. -/
def runImage (host : Host m) (options : Options) (config : Config)
    (image : List UInt8) :
    m Outcome := do
  let address := if options.cpm then Cpm.programArea else options.loadAddress
  match Machine.load address image with
  | .error e => return .failed e
  | .ok machine =>
    info host ("Loaded " ++ toString image.length ++ " bytes at "
      ++ addressText address)
    match machine.busOf options.fetchWindow with
    | .error e => return .failed e
    | .ok bus =>
      runMachine host options config bus machine
      return .finished

/-- Run with options. -/
def runOptions (host : Host m) (options : Options) : m Outcome := do
  match ← loadConfig host options with
  | .error e => return .failed e
  | .ok config =>
    match ← loadImage host options with
    | .error e => return .failed e
    | .ok image => runImage host options config image

/-- Run from the text of a file of settings, if there is one, the environment
and the arguments. -/
def run (host : Host m) (settings : Option String) (env : Environment)
    (args : List String) :
    m Outcome := do
  let (settings, complete) := (settings.map Setting.read).getD ([], true)
  match settings.foldlM Environment.add? env with
  | none => return .aborted
  | some env =>
    if !complete then host.warn "Warning: Failed to load .env file"
    info host "z80run v0.1.0"
    match Options.ofArguments env args with
    | .error .help =>
      host.print (shown (help env))
      return .helped
    | .error .misuse => return .misused
    | .ok options => runOptions host options

end ConsoleBoard.Runner
