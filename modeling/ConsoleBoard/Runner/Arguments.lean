/-
The command line of the program runner. Arguments are read from left to
right: the first one that cannot be taken ends the reading, and so does a
request for help. What the command line leaves out, the environment may give.
-/
import ConsoleBoard.Runner.Settings
import ConsoleBoard.Text.Hex

namespace ConsoleBoard.Runner

/-- What the command line asks for. -/
structure Options where
  /-- The path of the program. -/
  image : String
  loadAddress : UInt16
  /-- The path of the configuration. -/
  config : Option String
  frames : Nat
  /-- Request an interrupt at the start of every frame. -/
  irq : Bool
  /-- Fetch opcodes straight from RAM. -/
  fetchWindow : Bool
  /-- Run as a CP/M program. -/
  cpm : Bool
  /-- Print the final state. -/
  json : Bool
deriving DecidableEq

/-- Why there are no options. -/
inductive Refusal
  | help
  | misuse
deriving DecidableEq

/-- Arguments that take a value. -/
inductive ValueOption
  | loadAddress | config | frames
deriving DecidableEq

/-- Arguments that take none. -/
inductive Switch
  | irq | fetchWindow | cpm | json
deriving DecidableEq

/-- The arguments read so far. -/
structure Draft where
  image : Option String := none
  loadAddress : Option UInt16 := none
  config : Option String := none
  frames : Option Nat := none
  switches : List Switch := []

-- ================================================================== values

/-- Digits in a base with an optional plus sign. -/
def unsigned? (base : Nat) (cs : List Char) : Option Nat :=
  match cs with
  | '+' :: digits => Text.ofDigits? base digits
  | digits => Text.ofDigits? base digits

/-- An address: decimal, or hexadecimal after `0x`. -/
def address? (s : String) : Option UInt16 := do
  let n ← match s.toList with
    | '0' :: 'x' :: digits => unsigned? 16 digits
    | '0' :: 'X' :: digits => unsigned? 16 digits
    | digits => unsigned? 10 digits
  if n < 65536 then return UInt16.ofNat n else none

/-- A number of frames: 32 bits, in decimal. Zero may have a minus sign. -/
def frames? (s : String) : Option Nat := do
  let n ← match s.toList with
    | '-' :: digits => (Text.ofDigits? 10 digits).filter (· == 0)
    | digits => unsigned? 10 digits
  if n < 4294967296 then return n else none

/-- A path is any text but the empty one. -/
def path? (s : String) : Option String := if s.isEmpty then none else some s

-- =================================================================== names

def longValueOptions : List (String × ValueOption) :=
  [("load-address", .loadAddress), ("config", .config), ("frames", .frames)]

def shortValueOptions : List (Char × ValueOption) :=
  [('a', .loadAddress), ('c', .config), ('f', .frames)]

def longSwitches : List (String × Switch) :=
  [("irq", .irq), ("fetch-window", .fetchWindow), ("cpm", .cpm),
    ("json", .json)]

-- =============================================================== arguments

namespace Draft

/-- Give an option its value, once. -/
def setValue (d : Draft) (option : ValueOption) (text : String) :
    Except Refusal Draft :=
  match option with
  | .loadAddress =>
    match d.loadAddress, address? text with
    | none, some address => .ok { d with loadAddress := some address }
    | _, _ => .error .misuse
  | .config =>
    match d.config, path? text with
    | none, some path => .ok { d with config := some path }
    | _, _ => .error .misuse
  | .frames =>
    match d.frames, frames? text with
    | none, some frames => .ok { d with frames := some frames }
    | _, _ => .error .misuse

/-- Turn a switch on, once. -/
def setSwitch (d : Draft) (switch : Switch) : Except Refusal Draft :=
  if switch ∈ d.switches then .error .misuse
  else .ok { d with switches := switch :: d.switches }

/-- Take the path of the program, once. -/
def setImage (d : Draft) (text : String) : Except Refusal Draft :=
  match d.image, path? text with
  | none, some path => .ok { d with image := some path }
  | _, _ => .error .misuse

end Draft

/-- What an argument is, by its first characters. -/
inductive Argument
  /-- Two hyphens: only paths follow. -/
  | divider
  | help
  | switch (switch : Switch)
  /-- An option; its value, if that is part of the argument. -/
  | value (option : ValueOption) (text : Option String)
  | path (text : String)
  | unknown
deriving DecidableEq

namespace Argument

/-- An argument with two hyphens: a name, and perhaps a value after an equals
sign. Only options take a value. -/
def ofLong (cs : List Char) : Argument :=
  let name := String.ofList (cs.takeWhile (· ≠ '='))
  let text := match cs.dropWhile (· ≠ '=') with
    | [] => none
    | _ :: after => some (String.ofList after)
  match longValueOptions.lookup name, longSwitches.lookup name, text with
  | some option, _, _ => .value option text
  | none, some found, none => .switch found
  | none, none, none => if name = "help" then .help else .unknown
  | none, _, some _ => .unknown

/-- An argument with one hyphen: a letter, and perhaps a value, with or without
an equals sign before it. -/
def ofShort (letter : Char) (rest : List Char) : Argument :=
  match shortValueOptions.lookup letter with
  | some option =>
    match rest with
    | [] => .value option none
    | '=' :: text => .value option (some (String.ofList text))
    | text => .value option (some (String.ofList text))
  | none => if letter = 'h' then .help else .unknown

/-- Classify an argument. One hyphen alone is a path. -/
def ofText (s : String) : Argument :=
  match s.toList with
  | ['-', '-'] => .divider
  | '-' :: '-' :: cs => ofLong cs
  | '-' :: letter :: rest => ofShort letter rest
  | _ => .path s

end Argument

/-- Read arguments of which all are paths. -/
def Draft.takePaths (d : Draft) (args : List String) : Except Refusal Draft :=
  args.foldlM Draft.setImage d

/-- Read arguments. -/
def Draft.take (d : Draft) : List String → Except Refusal Draft
  | [] => .ok d
  | arg :: rest =>
    match Argument.ofText arg with
    | .divider => d.takePaths rest
    | .help => .error .help
    | .switch switch => do (← d.setSwitch switch).take rest
    | .value option (some text) => do (← d.setValue option text).take rest
    | .value option none =>
      match rest with
      | [] => .error .misuse
      | text :: more =>
        match Argument.ofText text with
        | .path text => do (← d.setValue option text).take more
        | _ => .error .misuse
    | .path text => do (← d.setImage text).take rest
    | .unknown => .error .misuse

-- ============================================================= environment

/-- The variable that names a configuration. -/
def configVariable : String := "Z80RUN_CONFIG"

/-- The variable that gives the number of frames. -/
def framesVariable : String := "Z80RUN_FRAMES"

/-- An option that the command line lacks, from its variable. -/
def Draft.fallback {α : Type} (given : Option α) (env : Environment)
    (variableName : String) (read : String → Option α) :
    Except Refusal (Option α) :=
  match given, env.lookup variableName with
  | some v, _ => .ok (some v)
  | none, none => .ok none
  | none, some text =>
    match read text with
    | some v => .ok (some v)
    | none => .error .misuse

/-- The options of a command line, with what the environment adds. -/
def Options.ofArguments (env : Environment) (args : List String) :
    Except Refusal Options := do
  let d ← Draft.take {} args
  let config ← Draft.fallback d.config env configVariable path?
  let frames ← Draft.fallback d.frames env framesVariable frames?
  match d.image with
  | none => .error .misuse
  | some image => return {
      image
      loadAddress := d.loadAddress.getD 0
      config
      frames := frames.getD 60
      irq := d.switches.contains .irq
      fetchWindow := d.switches.contains .fetchWindow
      cpm := d.switches.contains .cpm
      json := d.switches.contains .json }

end ConsoleBoard.Runner
