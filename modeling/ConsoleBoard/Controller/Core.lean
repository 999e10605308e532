/-
The electrical side of a controller port. Seven lines run between console
and device; the console's control register says which of them it drives, and
a line that it does not drive is the device's to set. A device sees the
driven lines, with the others pulled high, and notices edges by comparing
with the levels it saw before. Both what the device sees and what the
console reads are kept, and recomputed when one of their causes changes.
-/

namespace ConsoleBoard.Controller

/-- The line masks, by the names of the pins. -/
structure Pin where
  mask : UInt8

namespace Pin

def up : Pin := ⟨0x01⟩
def down : Pin := ⟨0x02⟩
def left : Pin := ⟨0x04⟩
def right : Pin := ⟨0x08⟩
def tl : Pin := ⟨0x10⟩
def tr : Pin := ⟨0x20⟩
def th : Pin := ⟨0x40⟩

def named : List (String × Pin) :=
  [("UP", up), ("DOWN", down), ("LEFT", left), ("RIGHT", right), ("TL", tl),
    ("TR", tr), ("TH", th)]

/-- All seven lines. -/
def allLines : UInt8 := 0x7F

end Pin

/-- What every controller has. -/
structure Core where
  /-- Place in the protocol; its meaning is the device's. -/
  counter : Nat
  /-- Scanlines since the counters were cleared. -/
  scanlines : Nat
  /-- What the device drives. -/
  deviceData : UInt8
  /-- One bits are the lines that the console drives. -/
  control : UInt8
  /-- What the console drives on them. -/
  systemData : UInt8
  /-- The levels that the device sees. -/
  lines : UInt8
  /-- The levels that edges are counted from. -/
  linesBefore : UInt8
  /-- What the console reads. -/
  output : UInt8
  buttons : UInt32
  buttonsBefore : UInt32
  /-- Pointer position. -/
  x : Int
  y : Int
  /-- Pins 8 (bit 0) and 5 (bit 1) of the connector. -/
  pin58 : UInt8
  serialControl : UInt8
  serialTx : UInt8
deriving DecidableEq

/-- Counters are 32 bits wide and stop at their largest value. -/
def saturated (n : Nat) : Nat := min n 4294967295

/-- The pointer position that means off-screen. -/
def offscreen : Int × Int := (-1, -1)

namespace Core

-- ============================================================= line levels

/-- A value as the console reads it when the device drives it: driven lines
and bit 7 show what the console wrote. -/
def tristate (core : Core) (data : UInt8) : UInt8 :=
  (data &&& ~~~core.control &&& 0x7F)
    ||| (core.systemData &&& (core.control ||| 0x80))

/-- Recompute the levels that the device sees: lines nobody drives are
pulled high. -/
def senseLines (core : Core) : Core :=
  { core with lines := ~~~core.control ||| core.systemData }

/-- Count edges from the present levels. -/
def latchLines (core : Core) : Core := { core with linesBefore := core.lines }

/-- Recompute what the console reads. -/
def refreshOutput (core : Core) : Core :=
  { core with output := core.tristate core.deviceData }

/-- Drive the device's side of the lines. -/
def setDeviceData (core : Core) (data : UInt8) : Core :=
  { core with deviceData := data }.refreshOutput

/-- Whether one of the lines is high. -/
def line (core : Core) (pin : Pin) : Bool := core.lines &&& pin.mask != 0

/-- Whether the lines were all low before and one of them is high now. -/
def rose (core : Core) (pin : Pin) : Bool :=
  core.linesBefore &&& pin.mask == 0 && core.line pin

/-- Whether one of the lines was high before and all of them are low now. -/
def fell (core : Core) (pin : Pin) : Bool :=
  core.linesBefore &&& pin.mask != 0 && !core.line pin

-- =================================================================== reset

/-- Clear what the console wrote, the buttons, the pointer and the serial
registers. The counters are the device's own and stay. -/
def resetSystem (core : Core) : Core :=
  { core with
    deviceData := 0xFF
    control := 0x00
    systemData := 0xFF
    buttons := 0xFFFFFFFF
    buttonsBefore := 0xFFFFFFFF
    x := offscreen.1
    y := offscreen.2
    pin58 := 0x03
    serialControl := 0x00
    serialTx := 0xFF }.senseLines.latchLines.refreshOutput

/-- Clear the counters. -/
def resetCounters (core : Core) : Core :=
  { core with counter := 0, scanlines := 0 }

/-- A core before its device has driven anything. -/
def fresh : Core where
  counter := 0
  scanlines := 0
  deviceData := 0xFF
  control := 0x00
  systemData := 0xFF
  lines := 0xFF
  linesBefore := 0xFF
  output := 0xFF
  buttons := 0xFFFFFFFF
  buttonsBefore := 0xFFFFFFFF
  x := offscreen.1
  y := offscreen.2
  pin58 := 0x03
  serialControl := 0x00
  serialTx := 0xFF

end Core

end ConsoleBoard.Controller
