/-
The EEPROM in the address space of a processor with 16-bit memory: which
addresses belong to it, and what reads and writes of bytes and words do. The
byte at an even address is the high half of its word.
-/
import ConsoleBoard.Eeprom.Basic

namespace ConsoleBoard.Eeprom

/-- The odd address of the word that contains an address. -/
def odd (address : UInt32) : UInt32 := address ||| 1

/-- The even address of the word that contains an address. -/
def even (address : UInt32) : UInt32 := address &&& ~~~1

namespace Line

/-- The bit of a line in the word that contains it. -/
def wordBit (line : Line) : Nat :=
  if line.address % 2 = 0 then line.bit + 8 else line.bit

/-- The level of the line in a byte written at an address, if it is there. -/
def inByte? (line : Line) (address : UInt32) (v : UInt8) : Option Bool :=
  if address = line.address then some (v.toNat.testBit line.bit) else none

/-- The level of the line in a word written at an address, if it is there. -/
def inWord? (line : Line) (address : UInt32) (w : UInt16) : Option Bool :=
  if even address = even line.address then some (w.toNat.testBit line.wordBit)
  else none

end Line

-- ================================================================ decoding

/-- A test of the selected board. -/
def mapped (e : Eeprom) (test : Mapper → Bool) : Bool :=
  match e.mapper with
  | some m => test m
  | none => false

def isReadBytePort (e : Eeprom) (address : UInt32) : Bool :=
  e.mapped fun m => address == m.sdaOut.address

def isReadWordPort (e : Eeprom) (address : UInt32) : Bool :=
  e.mapped fun m => odd address == odd m.sdaOut.address

def isWriteBytePort (e : Eeprom) (address : UInt32) : Bool :=
  e.mapped fun m => address == m.scl.address || address == m.sdaIn.address

def isWriteWordPort (e : Eeprom) (address : UInt32) : Bool :=
  e.mapped fun m =>
    odd address == odd m.scl.address || odd address == odd m.sdaIn.address

-- ================================================================= reading

/-- The data line at its bit, and open bus at every other address. -/
def readByte (e : Eeprom) (address : UInt32) : UInt8 :=
  match e.mapper with
  | some m =>
    if address = m.sdaOut.address then
      if e.regs.sda then UInt8.ofNat (1 <<< m.sdaOut.bit) else 0
    else 0xFF
  | none => 0xFF

def readWord (e : Eeprom) (address : UInt32) : UInt16 :=
  match e.mapper with
  | some m =>
    if even address = even m.sdaOut.address then
      if e.regs.sda then UInt16.ofNat (1 <<< m.sdaOut.wordBit) else 0
    else 0xFFFF
  | none => 0xFFFF

-- ================================================================= writing

/-- Put the levels that a write gives on the lines. A line that the write does
not contain keeps its level, and without either nothing happens. -/
def writeLines (e : Eeprom) (scl sdaIn : Option Bool) : Eeprom :=
  if scl.isNone && sdaIn.isNone then e
  else e.writeLevels (scl.getD e.regs.sclBefore) (sdaIn.getD e.regs.sdaInBefore)

def writeByte (e : Eeprom) (address : UInt32) (v : UInt8) : Eeprom :=
  match e.mapper with
  | some m => e.writeLines (m.scl.inByte? address v) (m.sdaIn.inByte? address v)
  | none => e

def writeWord (e : Eeprom) (address : UInt32) (w : UInt16) : Eeprom :=
  match e.mapper with
  | some m => e.writeLines (m.scl.inWord? address w) (m.sdaIn.inWord? address w)
  | none => e

end ConsoleBoard.Eeprom
