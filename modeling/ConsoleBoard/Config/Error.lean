/-
Why a configuration is refused: its file cannot be read, its text is not a
configuration, it has no text, or one of its values makes no machine.
-/
import ConsoleBoard.Controller.TeamPlayer
import ConsoleBoard.Eeprom.Chip
import ConsoleBoard.Text.Hex

namespace ConsoleBoard.Config

/-- A value that makes no machine. -/
inductive Fault
  | noCycles
  | noLines
  | longFrame (cycles : Nat)
  | unknownBoard (index : Nat)
  | crowdedMultitap (devices : Nat)
  | chainedMultitap
  /-- A program of so many bytes, for an address too near the end of memory. -/
  | longImage (bytes : Nat) (address : UInt16)
deriving DecidableEq

namespace Fault

/-- The name of the value. -/
def key : Fault → String
  | noCycles => "cycles_per_line"
  | noLines => "lines_per_frame"
  | longFrame _ => "lines_per_frame"
  | unknownBoard _ => "eeprom_type"
  | crowdedMultitap _ => "team_player.devices"
  | chainedMultitap => "team_player.devices"
  | longImage _ _ => "image"

def reason : Fault → String
  | noCycles => "must be non-zero"
  | noLines => "must be non-zero"
  | longFrame cycles =>
    "frame of " ++ toString cycles ++ " T-states does not fit a cycle budget"
  | unknownBoard index =>
    toString index ++ " out of range 0-"
      ++ toString (Eeprom.Board.database.length - 1)
  | crowdedMultitap devices =>
    toString devices ++ " devices for "
      ++ toString Controller.TeamPlayer.portCount ++ " ports"
  | chainedMultitap => "multitaps cannot be chained"
  | longImage bytes address =>
    toString bytes ++ " bytes do not fit at 0x" ++ Text.hexUpper 4 address.toNat

end Fault

/-- A refused configuration. -/
inductive Error
  /-- The file is missing or is not text. -/
  | unreadable
  /-- The text is no configuration. -/
  | malformed
  /-- The configuration cannot be put into text. -/
  | unwritable
  | invalid (fault : Fault)
deriving DecidableEq

def Error.message : Error → String
  | unreadable => "Failed to read config file"
  | malformed => "Failed to parse config file"
  | unwritable => "Failed to serialize config"
  | invalid fault => "Invalid value for " ++ fault.key ++ ": " ++ fault.reason

end ConsoleBoard.Config
