/-
The configuration of a machine: how many T-states make up a frame, which
EEPROM board the cartridge has and what is plugged into the ports. Every
value has a default, so a configuration says only what differs.
-/
import ConsoleBoard.Controller.Kind

namespace ConsoleBoard

/-- The kind of controller on each port. -/
structure Config.Ports where
  one : Controller.Kind := .threeButton
  two : Controller.Kind := .threeButton
  ext : Controller.Kind := .none
deriving DecidableEq

namespace Config

/-- T-states in a scanline of the 60 Hz machine: 3.58 MHz over 15.7 kHz. -/
def defaultCyclesPerLine : UInt32 := 228

/-- Scanlines in a frame of the 60 Hz machine. -/
def defaultLinesPerFrame : UInt32 := 262

end Config

/-- A configuration. -/
structure Config where
  cyclesPerLine : UInt32 := Config.defaultCyclesPerLine
  linesPerFrame : UInt32 := Config.defaultLinesPerFrame
  /-- The place of the EEPROM board in the database; nothing for none. -/
  eepromType : Option Nat := none
  ports : Config.Ports := {}
  /-- The controllers behind each Team Player, virtual ports A to D in order. -/
  chained : List Controller.Kind := []
deriving DecidableEq

namespace Config

/-- T-states in a frame, before any limit. -/
def frame (c : Config) : Nat := c.cyclesPerLine.toNat * c.linesPerFrame.toNat

/-- The budget of a frame. It stops at the largest budget that there is. -/
def cyclesPerFrame (c : Config) : Nat := min c.frame 2147483647

/-- The largest frame that is accepted. It leaves room for the instruction
that overruns the budget. -/
def maxFrame : Nat := 2147483647 - 64

end Config

end ConsoleBoard
