/-
Joypads. The console selects what a pad shows by the level of TH, and a
six-button pad also counts the rises of TH to show more buttons than there
are lines.
-/
import ConsoleBoard.Controller.Device

namespace ConsoleBoard.Controller

namespace Pad

/-- `??CBRLDU`, whatever the lines. -/
def twoButton (buttons : UInt32) : UInt8 :=
  (0xC0 : UInt8) ||| (buttons &&& 0x3F).toUInt8

/-- The START and A buttons on lines 5 and 4. -/
def startA (buttons : UInt32) : UInt8 := ((buttons >>> 2) &&& 0x30).toUInt8

/-- `?1CBRLDU` with TH high and `?0SA00DU` with TH low. -/
def threeButton (buttons : UInt32) (th : Bool) : UInt8 :=
  if th then (0xC0 : UInt8) ||| (buttons &&& 0x3F).toUInt8
  else (0x80 : UInt8) ||| startA buttons ||| (buttons &&& 0x03).toUInt8

/-- What a six-button pad shows after `count` rises of TH: as three buttons,
but `?0SA0000` and `?0SA1111` with TH low after two and three, and
`?1CBMXYZ` with TH high after three. -/
def sixButton (count : Nat) (buttons : UInt32) (th : Bool) : UInt8 :=
  match count, th with
  | 3, true => (0xC0 : UInt8) ||| (buttons &&& 0x30).toUInt8
      ||| ((buttons >>> 8) &&& 0x0F).toUInt8
  | 2, false => (0x80 : UInt8) ||| startA buttons
  | 3, false => (0x80 : UInt8) ||| startA buttons ||| 0x0F
  | _, _ => threeButton buttons th

/-- The answer of a six-button pad. A rise of TH counts modulo four. -/
def sixButtonDrive (core : Core) : Drive :=
  let rise := core.rose .th
  let counter := if rise then (core.counter + 1) % 4 else core.counter
  { counter
    scanlines := if rise then 0 else core.scanlines
    data := sixButton counter core.buttons (core.line .th) }

end Pad

end ConsoleBoard.Controller
