/-
The paddle. Its position has eight bits and its port four lines for them, so
it shows one half at a time and changes halves at every read; TR tells which
half is on the lines.
-/
import ConsoleBoard.Controller.Device

namespace ConsoleBoard.Controller

namespace Paddle

/-- Pointer columns across the range of the knob. -/
def width : Int := 1280

/-- Knob position of a pointer: the middle when it is off-screen, and else
its column scaled to a byte. -/
def position (core : Core) : UInt8 :=
  if core.x = offscreen.1 ∧ core.y = offscreen.2 then 0x80
  else UInt8.ofNat ((max 0 (min core.x (width - 1))) * 256 / width).toNat

/-- Whether the high half is on the lines. -/
def highHalf (core : Core) : Bool := core.counter % 2 = 1

/-- The answer of a paddle: the half, with the button on TL. -/
def drive (core : Core) : Drive :=
  let half := position core
  let button := (core.buttons &&& 0x01).toUInt8 * 16
  core.drive (if highHalf core then 0xE0 ||| button ||| half / 16
    else 0xC0 ||| button ||| half % 16)

end Paddle

end ConsoleBoard.Controller
