/-
The hand controller with stick and keypad. It has no registers: pin 8 low
puts the stick on the lines, pin 5 low the keypad.
-/
import ConsoleBoard.Controller.Device

namespace ConsoleBoard.Controller

namespace Coleco

/-- The code of each key: the ten digits, star and hash. -/
def keyCodes : List UInt8 :=
  [0x0A, 0x0D, 0x07, 0x0C, 0x02, 0x03, 0x0E, 0x05, 0x01, 0x0B, 0x06, 0x09]

/-- The code with no key pressed. -/
def noKey : UInt8 := 0x0F

/-- A button's bit as a number. -/
def level (buttons : UInt32) (n : UInt32) : UInt8 :=
  ((buttons >>> n) &&& 1).toUInt8

/-- The stick, in the controller's own order of directions, and the left fire
button. -/
def stick (buttons : UInt32) : UInt8 :=
  (0xB0 : UInt8) ||| level buttons 4 <<< 6 ||| level buttons 2 <<< 3
    ||| level buttons 1 <<< 2
    ||| level buttons 3 <<< 1 ||| level buttons 0

/-- The code of the lowest pressed key from bit `n` on. -/
def firstKey (buttons : UInt32) (n : UInt32) : List UInt8 → UInt8
  | [] => noKey
  | code :: rest =>
      if level buttons n = 0 then code else firstKey buttons (n + 1) rest

/-- The keypad and the right fire button. -/
def keypad (buttons : UInt32) : UInt8 :=
  (0xB0 : UInt8) ||| level buttons 5 <<< 6 ||| firstKey buttons 6 keyCodes

/-- The answer of the controller: with neither half selected, or both, every
line is high. -/
def drive (core : Core) : Drive :=
  core.drive (if core.pin58 = 0x02 then stick core.buttons
    else if core.pin58 = 0x01 then keypad core.buttons
    else 0xFF)

end Coleco

end ConsoleBoard.Controller
