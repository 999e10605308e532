/-
Button words. A word has one bit for each button, and a pressed button is a
zero. The same bits mean different buttons on different devices.
-/

namespace ConsoleBoard.Controller

namespace Button

def up : UInt32 := 0x0001
def down : UInt32 := 0x0002
def left : UInt32 := 0x0004
def right : UInt32 := 0x0008
def b : UInt32 := 0x0010
def c : UInt32 := 0x0020
def a : UInt32 := 0x0040
def start : UInt32 := 0x0080
def z : UInt32 := 0x0100
def y : UInt32 := 0x0200
def x : UInt32 := 0x0400
def mode : UInt32 := 0x0800

/-- The button on a paddle's knob. -/
def paddle : UInt32 := 0x0001

/-- The two buttons of a two-button pad. -/
def one : UInt32 := b
def two : UInt32 := c

/-- The fire buttons of a keypad controller. -/
def fireLeft : UInt32 := 0x0010
def fireRight : UInt32 := 0x0020

/-- The first key of the keypad; the others follow it bit by bit. -/
def keypadZero : UInt32 := 0x0040
def keypadStar : UInt32 := keypadZero <<< 10
def keypadHash : UInt32 := keypadZero <<< 11

/-- Nothing pressed. -/
def released : UInt32 := 0xFFFFFFFF

/-- The word with exactly the buttons of a mask pressed. -/
def pressed (mask : UInt32) : UInt32 := ~~~mask

/-- The word with one keypad digit pressed. -/
def keypad (digit : UInt32) : UInt32 := pressed (keypadZero <<< digit)

end Button

/-- Release both of a pair of buttons if both are pressed. -/
def releasePair (pair buttons : UInt32) : UInt32 :=
  if buttons &&& pair = 0 then buttons ||| pair else buttons

/-- A pad cannot point up and down, or left and right, at once: both
directions of such a pair are released. -/
def constrainDpad (buttons : UInt32) : UInt32 :=
  releasePair (Button.left ||| Button.right)
    (releasePair (Button.up ||| Button.down) buttons)

end ConsoleBoard.Controller
