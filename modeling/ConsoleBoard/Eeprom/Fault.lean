/-
The calls on the lines as they end: with a result or in a fault.

Three kinds of data leave an operation without a result. The clock count is
a byte, the storage has a last index, and a line may be wired to a bit that
a byte or a word does not have, since nobody looks at the bits of a board
when it is selected. `Eeprom.Basic` and `Eeprom.Ports` say what the calls do
otherwise, without these checks.
-/
import ConsoleBoard.Eeprom.Ports

namespace ConsoleBoard.Eeprom

/-- Why a call on the lines does not come to its end. -/
inductive Fault
  /-- The clock count is full. -/
  | overrun
  /-- The storage has no such index. -/
  | outside (address : UInt16)
  /-- A byte or a word has no such bit. -/
  | noBit (bit : Nat)
deriving DecidableEq

/-- The count with one more clock, as long as a byte can hold it. -/
def Registers.countUp (r : Registers) : Except Fault Nat :=
  if r.counter < 255 then .ok (r.counter + 1) else .error .overrun

/-- The stored byte at an address. -/
def tryLoad (e : Eeprom) (address : UInt16) : Except Fault UInt8 :=
  if address.toNat < e.storage.size then .ok (e.stored address)
  else .error (.outside address)

/-- The storage with a byte put at an address. -/
def tryStore (e : Eeprom) (address : UInt16) (v : UInt8) :
    Except Fault (Array UInt8) :=
  if address.toNat < e.storage.size then
    .ok (e.storage.setIfInBounds address.toNat v)
  else .error (.outside address)

-- ============================================================ the protocol

/-- Act on a whole received byte. -/
def tryCompleteByte (chip : Chip) (e : Eeprom) : Except Fault Eeprom :=
  let r := e.regs
  match r.phase with
  | .wordAddress =>
    let address := (r.buffer / 2).toUInt16
    if r.buffer % 2 = 1 then do
      let buffer ← e.tryLoad address
      return { e with regs := { r with
        address, rw := true, counter := 0, buffer, shiftOut := true,
        phase := .readData } }
    else
      return { e with regs := { r with
        address, rw := false, counter := 0, buffer := 0, shiftOut := false
        phase := .writeData } }
  | .writeData => do
    let storage ← e.tryStore r.address r.buffer
    return { e with
      storage
      regs := { r with
        dirty := true, address := nextInPage chip r.address, buffer := 0 } }
  | _ => .ok { e with regs := r.stand }

/-- A rise of the clock while the processor sends. -/
def tryReceiveRise (chip : Chip) (e : Eeprom) : Except Fault Eeprom := do
  let r := e.regs
  let counter ← r.countUp
  if r.counter < 8 then
    let bit : UInt8 := if r.sda then 1 else 0
    return { e with regs := { r with buffer := r.buffer * 2 + bit, counter } }
  else
    tryCompleteByte chip { e with regs := { r with sdaOut := false, counter } }

/-- A rise of the clock while the chip sends. -/
def trySendRise (chip : Chip) (e : Eeprom) : Except Fault Eeprom :=
  let r := e.regs
  if 9 ≤ r.counter && !r.sda then
    match r.phase with
    | .readData => do
      let address := (r.address + 1) &&& chip.sizeMask
      let buffer ← e.tryLoad address
      return { e with regs := { r with address, buffer, counter := 0 } }
    | _ => .ok { e with regs := r.stand }
  else .ok e

/-- React to an event on the lines. Only a rise of the clock counts without a
limit or touches the storage. -/
def tryReact (chip : Chip) (e : Eeprom) (event : Event) : Except Fault Eeprom :=
  if event = .rise ∧ e.regs.phase ≠ .standby then
    if e.regs.shiftOut then trySendRise chip e else tryReceiveRise chip e
  else .ok (react chip e event)

/-- Put levels on the two lines that the processor drives. -/
def tryWriteLevels (e : Eeprom) (scl sdaIn : Bool) : Except Fault Eeprom :=
  let e := { e with regs := { e.regs with
      scl, sdaIn, sdaOutBefore := e.regs.sdaOut } }
  match e.mapper with
  | some m =>
    if m.chip.sizeMask != 0 then (tryReact m.chip e e.regs.event).map settle
    else .ok e.settle
  | none => .ok e.settle

-- ============================================================ the accesses

/-- A bit of a value that is `width` bits wide. -/
def bitOf (width v bit : Nat) : Except Fault Bool :=
  if bit < width then .ok (v.testBit bit) else .error (.noBit bit)

namespace Line

/-- The level of the line in a byte written at an address, if it is there. -/
def tryInByte (line : Line) (address : UInt32) (v : UInt8) :
    Except Fault (Option Bool) :=
  if address = line.address then (bitOf 8 v.toNat line.bit).map some
  else .ok none

/-- The level of the line in a word written at an address, if it is there. -/
def tryInWord (line : Line) (address : UInt32) (w : UInt16) :
    Except Fault (Option Bool) :=
  if even address = even line.address then
    (bitOf 16 w.toNat line.wordBit).map some
  else .ok none

end Line

def tryWriteLines (e : Eeprom) (scl sdaIn : Option Bool) :
    Except Fault Eeprom :=
  if scl.isNone && sdaIn.isNone then .ok e
  else e.tryWriteLevels (scl.getD e.regs.sclBefore)
    (sdaIn.getD e.regs.sdaInBefore)

def tryWriteByte (e : Eeprom) (address : UInt32) (v : UInt8) :
    Except Fault Eeprom :=
  match e.mapper with
  | some m => do
    e.tryWriteLines (← m.scl.tryInByte address v)
      (← m.sdaIn.tryInByte address v)
  | none => .ok e

def tryWriteWord (e : Eeprom) (address : UInt32) (w : UInt16) :
    Except Fault Eeprom :=
  match e.mapper with
  | some m => do
    e.tryWriteLines (← m.scl.tryInWord address w)
      (← m.sdaIn.tryInWord address w)
  | none => .ok e

/-- The data line at its bit, and open bus at every other address. -/
def tryReadByte (e : Eeprom) (address : UInt32) : Except Fault UInt8 :=
  match e.mapper with
  | some m =>
    if address = m.sdaOut.address ∧ 8 ≤ m.sdaOut.bit then
      .error (.noBit m.sdaOut.bit)
    else .ok (e.readByte address)
  | none => .ok (e.readByte address)

def tryReadWord (e : Eeprom) (address : UInt32) : Except Fault UInt16 :=
  match e.mapper with
  | some m =>
    if even address = even m.sdaOut.address ∧ 16 ≤ m.sdaOut.wordBit then
      .error (.noBit m.sdaOut.wordBit)
    else .ok (e.readWord address)
  | none => .ok (e.readWord address)

end ConsoleBoard.Eeprom
