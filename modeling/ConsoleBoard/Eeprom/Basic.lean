/-
The EEPROM and its two-wire protocol. A start condition is a fall of the
data line while the clock is high, a stop condition a rise; between them
every byte takes nine clocks, eight bits with the highest first and one in
which the receiver answers by pulling the line low. The chip looks at the
lines only when one of them is written, and then only at what has changed
since the last write.
-/
import ConsoleBoard.Eeprom.Error

namespace ConsoleBoard.Eeprom

/-- Where a transaction stands. The two address phases of larger parts are
named, and nothing leads to them. -/
inductive Phase
  | standby
  | wordAddress
  | deviceAddress
  | wordAddressHigh
  | readData
  | writeData
deriving DecidableEq

/-- The protocol registers: all of the chip but its storage. -/
structure Registers where
  /-- The clock and the processor's data level as last written. -/
  scl : Bool := true
  sdaIn : Bool := true
  /-- The chip's data level; the line is low if either pulls it low. -/
  sdaOut : Bool := true
  /-- The levels before the last write. -/
  sclBefore : Bool := true
  sdaInBefore : Bool := true
  sdaOutBefore : Bool := true
  /-- Address of the next byte. -/
  address : UInt16 := 0
  /-- Clocks of the byte in flight. -/
  counter : Nat := 0
  /-- The direction that the last address byte asked for: true to read. -/
  rw : Bool := false
  /-- The chip is sending. -/
  shiftOut : Bool := false
  /-- The byte in flight. -/
  buffer : UInt8 := 0
  phase : Phase := .standby
  /-- Storage has been written since the host last cleared this. -/
  dirty : Bool := false
deriving DecidableEq

/-- What a write of the lines means. -/
inductive Event
  | start | stop | rise | fall | quiet
deriving DecidableEq

namespace Registers

/-- The data line as both sides see it. -/
def sda (r : Registers) : Bool := r.sdaIn && r.sdaOut

/-- The event that the levels make with those before. -/
def event (r : Registers) : Event :=
  match r.sclBefore, r.scl with
  | true, true =>
    match r.sdaInBefore, r.sdaIn with
    | true, false => .start
    | false, true => .stop
    | _, _ => .quiet
  | false, true => .rise
  | true, false => .fall
  | false, false => .quiet

/-- Let the line go and forget the byte in flight. -/
def resetShift (r : Registers) : Registers :=
  { r with counter := 0, sdaOut := true, buffer := 0, shiftOut := false }

/-- End the transaction. -/
def stand (r : Registers) : Registers := { r.resetShift with phase := .standby }

end Registers

end Eeprom

/-- A serial EEPROM with its storage. Storage is always of full size; a part
uses the beginning of it. -/
structure Eeprom where
  mapper : Option Eeprom.Mapper
  storage : Array UInt8
  regs : Eeprom.Registers

namespace Eeprom

/-- Storage with every bit set, as it is when erased. -/
def erased : Array UInt8 := Array.replicate storageSize 0xFF

/-- No part selected, and nothing stored. -/
def blank : Eeprom where
  mapper := none
  storage := erased
  regs := {}

/-- Erase the storage and end any transaction. The part stays selected. -/
def reset (e : Eeprom) : Eeprom := { e with storage := erased, regs := {} }

-- =============================================================== selection

/-- Select a known board by index; no index resets. -/
def select (e : Eeprom) : Option Nat → Except Error Eeprom
  | none => .ok e.reset
  | some index =>
    match Board.database[index]? with
    | some board => .ok { e with mapper := some board.mapper }
    | none => .error (.invalidType index (Board.database.length - 1))

/-- Select a board that is not known. -/
def selectMapper (e : Eeprom) (mapper : Mapper) : Except Error Eeprom :=
  if storageSize < mapper.chip.size then .error (.tooLarge mapper.chip)
  else if mapper.chip.pageMask &&& ~~~mapper.chip.sizeMask != 0 then
    .error (.pageOutsideSize mapper.chip)
  else .ok { e with mapper := some mapper }

/-- Whether a part is selected that has an address to speak of. -/
def isTypeSet (e : Eeprom) : Bool :=
  match e.mapper with
  | some m => m.chip.sizeMask != 0
  | none => false

/-- Bytes of the selected part. -/
def size (e : Eeprom) : Nat :=
  match e.mapper with
  | some m => min m.chip.size storageSize
  | none => 0

/-- The storage of the selected part. -/
def data (e : Eeprom) : Array UInt8 := e.storage.take e.size

/-- Put bytes into the storage from an index on. -/
def store (e : Eeprom) (start : Nat) : List UInt8 → Eeprom
  | [] => e
  | v :: rest => store { e with storage := e.storage.setIfInBounds start v }
      (start + 1) rest

/-- The stored byte at an address. -/
def stored (e : Eeprom) (address : UInt16) : UInt8 :=
  e.storage[address.toNat]?.getD 0xFF

def clearDirty (e : Eeprom) : Eeprom :=
  { e with regs := { e.regs with dirty := false } }

-- =============================================================== receiving

/-- The address after a written one: only the page bits count. -/
def nextInPage (chip : Chip) (address : UInt16) : UInt16 :=
  (address &&& ~~~chip.pageMask) ||| ((address + 1) &&& chip.pageMask)

/-- Act on a whole received byte. A byte that no phase expects ends the
transaction. -/
def completeByte (chip : Chip) (e : Eeprom) : Eeprom :=
  let r := e.regs
  match r.phase with
  | .wordAddress =>
    let address := (r.buffer / 2).toUInt16
    if r.buffer % 2 = 1 then
      { e with regs := { r with
          address, rw := true, counter := 0, buffer := e.stored address,
          shiftOut := true, phase := .readData } }
    else
      { e with regs := { r with
          address, rw := false, counter := 0, buffer := 0, shiftOut := false,
          phase := .writeData } }
  | .writeData =>
    { e with
      storage := e.storage.setIfInBounds r.address.toNat r.buffer
      regs := { r with
        dirty := true, address := nextInPage chip r.address, buffer := 0 } }
  | _ => { e with regs := r.stand }

/-- A rise of the clock while the processor sends: a bit of the byte, or in
the ninth clock the chip's answer. -/
def receiveRise (chip : Chip) (e : Eeprom) : Eeprom :=
  let r := e.regs
  if r.counter < 8 then
    let bit : UInt8 := if r.sda then 1 else 0
    { e with regs := { r with
        buffer := r.buffer * 2 + bit, counter := r.counter + 1 } }
  else
    completeByte chip { e with
      regs := { r with sdaOut := false, counter := r.counter + 1 } }

/-- A fall of the clock while the processor sends: the answer ends. -/
def receiveFall (e : Eeprom) : Eeprom :=
  let r := e.regs
  { e with regs := { r with
      sdaOut := true, counter := if 9 ≤ r.counter then 0 else r.counter } }

-- ================================================================= sending

/-- A rise of the clock while the chip sends. In the ninth clock a low line
asks for the next byte. -/
def sendRise (chip : Chip) (e : Eeprom) : Eeprom :=
  let r := e.regs
  if 9 ≤ r.counter && !r.sda then
    match r.phase with
    | .readData =>
      let address := (r.address + 1) &&& chip.sizeMask
      { e with regs := { r with
          address, buffer := e.stored address, counter := 0 } }
    | _ => { e with regs := r.stand }
  else e

/-- A fall of the clock while the chip sends: the next bit, or the line let go
for the processor's answer. -/
def sendFall (e : Eeprom) : Eeprom :=
  let r := e.regs
  if r.counter < 8 then
    { e with regs := { r with
        sdaOut := decide (128 ≤ r.buffer), buffer := r.buffer * 2,
        counter := r.counter + 1 } }
  else if r.counter = 8 then
    { e with regs := { r with sdaOut := true, counter := 9 } }
  else e

-- =============================================================== the lines

/-- React to an event on the lines. A start condition wakes only a part with
single-byte addressing. -/
def react (chip : Chip) (e : Eeprom) (event : Event) : Eeprom :=
  let r := e.regs
  match event with
  | .stop => { e with regs := r.stand }
  | .start =>
    match chip.addressing with
    | .single => { e with regs := { r.resetShift with phase := .wordAddress } }
    | _ => { e with regs := r.resetShift }
  | .rise =>
    if r.phase = .standby then e
    else if r.shiftOut then sendRise chip e
    else receiveRise chip e
  | .fall =>
    if r.phase = .standby then e
    else if r.shiftOut then sendFall e
    else receiveFall e
  | .quiet => e

/-- The levels written now are those before the next write. -/
def settle (e : Eeprom) : Eeprom :=
  let r := e.regs
  { e with regs := { r with sclBefore := r.scl, sdaInBefore := r.sdaIn } }

/-- Put levels on the two lines that the processor drives. -/
def writeLevels (e : Eeprom) (scl sdaIn : Bool) : Eeprom :=
  let e := { e with regs := { e.regs with
      scl, sdaIn, sdaOutBefore := e.regs.sdaOut } }
  match e.mapper with
  | some m =>
    if m.chip.sizeMask != 0 then (react m.chip e e.regs.event).settle
    else e.settle
  | none => e.settle

-- =============================================================== snapshots

/-- Load protocol registers. The address is cut to the selected part, or to
the storage when there is none, and the bit count to its range. -/
def restore (e : Eeprom) (r : Registers) : Eeprom :=
  let mask := match e.mapper with
    | some m => m.chip.sizeMask
    | none => UInt16.ofNat (storageSize - 1)
  { e with regs := { r with
      address := r.address &&& mask, counter := min r.counter 9 } }

end Eeprom

end ConsoleBoard
