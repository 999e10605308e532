/-
Serial EEPROM parts and the boards that carry them. A board decides which
bit of which byte address is the clock, and which two are the data line as
the processor drives it and as the chip does; nothing else in the library
knows an address.
-/

namespace ConsoleBoard.Eeprom

/-- How the word address follows a start condition. -/
inductive Addressing
  /-- Seven address bits and the direction in one byte. -/
  | single
  /-- A device byte, then one address byte. -/
  | device
  /-- A device byte, then two address bytes. -/
  | twoByte
deriving DecidableEq

/-- The geometry of a part. -/
structure Chip where
  name : String
  /-- The highest byte address. -/
  sizeMask : UInt16
  /-- The address bits that count during a page write. -/
  pageMask : UInt16
  addressing : Addressing
deriving DecidableEq

namespace Chip

/-- Size in bytes. -/
def size (chip : Chip) : Nat := chip.sizeMask.toNat + 1

def x24C01 : Chip := ⟨"X24C01", 0x007F, 0x03, .single⟩
def c24C01 : Chip := ⟨"24C01", 0x007F, 0x07, .device⟩
def c24C02 : Chip := ⟨"24C02", 0x00FF, 0x07, .device⟩
def c24C04 : Chip := ⟨"24C04", 0x01FF, 0x0F, .device⟩
def c24C08 : Chip := ⟨"24C08", 0x03FF, 0x0F, .device⟩
def c24C16 : Chip := ⟨"24C16", 0x07FF, 0x0F, .device⟩
def c24C32 : Chip := ⟨"24C32", 0x0FFF, 0x1F, .twoByte⟩
def c24C64 : Chip := ⟨"24C64", 0x1FFF, 0x1F, .twoByte⟩

/-- The parts with a name of their own. -/
def known : List Chip :=
  [x24C01, c24C01, c24C02, c24C04, c24C08, c24C16, c24C32, c24C64]

end Chip

/-- Bytes of storage: the largest supported part. -/
def storageSize : Nat := 0x4000

/-- One line: a bit, from 0 to 7, of the byte at an address. -/
structure Line where
  address : UInt32
  bit : Nat
deriving DecidableEq

/-- A part and its wiring. -/
structure Mapper where
  chip : Chip
  /-- The clock. -/
  scl : Line
  /-- The data line as the processor drives it. -/
  sdaIn : Line
  /-- The data line as the chip drives it. -/
  sdaOut : Line
deriving DecidableEq

/-- A board with a name. -/
structure Board where
  name : String
  mapper : Mapper
deriving DecidableEq

namespace Board

/-- A board by its part and the addresses and bits of its three lines. -/
def wired (name : String) (chip : Chip)
    (scl sdaIn sdaOut : UInt32 × Nat) : Board :=
  ⟨name, { chip, scl := ⟨scl.1, scl.2⟩, sdaIn := ⟨sdaIn.1, sdaIn.2⟩,
           sdaOut := ⟨sdaOut.1, sdaOut.2⟩ }⟩

/-- The known boards, in the order of their index. -/
def database : List Board := [
  wired "Sega X24C01" .x24C01 (0x200001, 1) (0x200001, 0) (0x200001, 0),
  wired "Sega 24C02" .c24C02 (0x200001, 1) (0x200001, 0) (0x200001, 0),
  wired "EA X24C01" .x24C01 (0x200000, 6) (0x200000, 7) (0x200000, 7),
  wired "Acclaim 24C02" .c24C02 (0x200000, 1) (0x200000, 0) (0x200000, 1),
  wired "Acclaim 24C16" .c24C16 (0x200000, 1) (0x200000, 0) (0x200000, 1),
  wired "Codemasters 24C08" .c24C08 (0x300000, 1) (0x300000, 0) (0x380001, 7),
  wired "Codemasters 24C16" .c24C16 (0x300000, 1) (0x300000, 0) (0x380001, 7),
  wired "Codemasters 24C64" .c24C64 (0x300000, 1) (0x300000, 0) (0x380001, 7)]

/-- The index of the board with a name, upper and lower case of the Latin
letters alike. -/
def find? (name : String) : Option Nat :=
  database.findIdx? fun board =>
    board.name.toList.map Char.toLower == name.toList.map Char.toLower

end Board

end ConsoleBoard.Eeprom
