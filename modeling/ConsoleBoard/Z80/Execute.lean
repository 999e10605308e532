/-
What each instruction does. An instruction returns the T-states it takes
beyond its listed cost, which only taken branches and repeating block
instructions do. The order of bus accesses is part of the meaning: operand
bytes first, in the order of the code, then reads, then writes.
-/
import ConsoleBoard.Z80.Instruction

namespace ConsoleBoard.Z80

open Micro

variable {σ : Type}

-- ================================================================ operands

/-- An operand whose address, if it has one, is known. -/
inductive Target
  | reg (r : ByteReg)
  | cell (address : UInt16)
deriving DecidableEq

/-- Find an operand. An indexed one fetches its displacement here. -/
def Operand.resolve : Operand → Micro σ Target
  | .reg r => return .reg r
  | .memory .hl => return .cell (← regs).hl.toWord
  | .memory x => return .cell (← indexedAddress x)

namespace Target

def read : Target → Micro σ UInt8
  | .reg r => return (← regs).get r
  | .cell address => read8 address

def write (v : UInt8) : Target → Micro σ Unit
  | .reg r => modifyRegs (·.set v r)
  | .cell address => write8 address v

end Target

/-- Read an operand that is used once. -/
def Operand.read (o : Operand) : Micro σ UInt8 := do (← o.resolve).read

-- ============================================================= block steps

namespace Direction

/-- The next address. -/
def step (direction : Direction) (w : UInt16) : UInt16 :=
  match direction with
  | up => w + 1
  | down => w - 1

/-- The next byte, wrapping within the byte. -/
def stepByte (direction : Direction) (v : UInt8) : UInt8 :=
  match direction with
  | up => v + 1
  | down => v - 1

end Direction

namespace Block

/-- One transfer: the byte at HL goes to DE. Returns whether bytes are left.
The undocumented bits are bits 3 and 1 of A plus the byte. -/
def load (direction : Direction) : Micro σ Bool := do
  let start ← regs
  let v ← read8 start.hl.toWord
  write8 start.de.toWord v
  let left := start.bc.toWord - 1
  let sum := start.a + v
  modifyRegs fun now => { now with
    hl := .ofWord (direction.step start.hl.toWord)
    de := .ofWord (direction.step start.de.toWord)
    bc := .ofWord left
    f := { now.f with
      y := bit sum 1, h := false, x := bit sum 3, p := left != 0, n := false } }
  return left != 0

/-- One comparison of A with the byte at HL. Returns whether bytes are left
and this one did not match. -/
def compare (direction : Direction) : Micro σ Bool := do
  let start ← regs
  let v ← read8 start.hl.toWord
  let left := start.bc.toWord - 1
  let (result, f) := Alu.sub8 start.a v false
  let rest := if f.h then result - 1 else result
  modifyRegs fun now => { now with
    hl := .ofWord (direction.step start.hl.toWord)
    bc := .ofWord left
    wz := direction.step now.wz
    f := { f with
      y := bit rest 1, x := bit rest 3, p := left != 0, c := now.f.c } }
  return left != 0 && result != 0

/-- Flags of the port instructions: `v` is the byte moved, `k` the byte plus
the counter that the chip adds to it, and `b` what is left in B. -/
def portFlags (v : UInt8) (k : Nat) (b : UInt8) : Flags :=
  { Flags.ofResult b with
    h := decide (255 < k)
    p := evenParity (UInt8.ofNat (k % 8) ^^^ b)
    n := bit v 7
    c := decide (255 < k) }

/-- One byte from the port BC to the address HL. Returns whether B is left. -/
def input (direction : Direction) : Micro σ Bool := do
  let start ← regs
  let v ← Micro.input start.bc.toWord
  write8 start.hl.toWord v
  let b := start.bc.high - 1
  modifyRegs fun now => { now with
    wz := direction.step start.bc.toWord
    hl := .ofWord (direction.step start.hl.toWord)
    bc := { start.bc with high := b }
    f := portFlags v (v.toNat + (direction.stepByte start.bc.low).toNat) b }
  return b != 0

/-- One byte from the address HL to the port BC, with B already counted
down. Returns whether B is left. -/
def output (direction : Direction) : Micro σ Bool := do
  let start ← regs
  let v ← read8 start.hl.toWord
  let b := start.bc.high - 1
  let port : Pair := { start.bc with high := b }
  Micro.output port.toWord v
  let hl := Pair.ofWord (direction.step start.hl.toWord)
  modifyRegs fun now => { now with
    wz := direction.step port.toWord
    hl := hl
    bc := port
    f := portFlags v (v.toNat + hl.low.toNat) b }
  return b != 0

def step (direction : Direction) : BlockAction → Micro σ Bool
  | .load => load direction
  | .compare => compare direction
  | .input => input direction
  | .output => output direction

/-- One step, and for a repeating instruction with work left PC goes back
onto it, so that interrupts can be taken between steps. -/
def run (action : BlockAction) (direction : Direction) (repeats : Bool) :
    Micro σ Nat := do
  let more ← step direction action
  if repeats && more then
    modifyRegs fun now => { now with pc := now.pc - 2, wz := now.pc - 1 }
    return Instruction.blockRepeat
  else
    return 0

end Block

-- ============================================================ instructions

/-- An operation of the CB page on a found operand. RES, SET and the shifts
also leave their result in `copy`. BIT on memory shows the high byte of WZ in
the undocumented flags. -/
def BitOp.apply (op : BitOp) (target : Target) (copy : Option ByteReg) :
    Micro σ Unit := do
  let v ← target.read
  let now ← regs
  match op with
  | .test n =>
    let source := match target with
      | .reg _ => v
      | .cell _ => (Pair.ofWord now.wz).high
    setFlags (Alu.testBit n v source now.f)
  | .shift s =>
    let (result, f) := Alu.shiftFlags s v now.f.c
    setFlags f
    store result
  | .reset n => store (v &&& ~~~Alu.mask n)
  | .set n => store (v ||| Alu.mask n)
where
  store (result : UInt8) : Micro σ Unit := do
    target.write result
    match copy with
    | some r => modifyRegs (·.set result r)
    | none => return ()

/-- Move PC by a signed byte. -/
def jumpBy (d : UInt8) : Micro σ Unit := do
  goTo ((← regs).pc + signExtend d)

/-- Fetch the address of a word operand in memory, which leaves WZ one past
it. -/
def absoluteWord : Micro σ UInt16 := do
  let address ← fetch16
  setWz (address + 1)
  return address

/-- Read through a pointer into A. -/
def loadAFrom (address : UInt16) : Micro σ Unit := do
  let v ← read8 address
  modifyRegs ({ · with a := v, wz := address + 1 })

/-- Write A through a pointer. WZ gets A above the next low byte. -/
def storeATo (address : UInt16) : Micro σ Unit := do
  let a := (← regs).a
  write8 address a
  setWz (Pair.mk a (Pair.ofWord (address + 1)).low).toWord

/-- LD A,I and LD A,R: parity shows IFF2. -/
def loadSpecial (v : UInt8) : Micro σ Unit := do
  let iff2 := (← get).iff2
  modifyRegs fun now => { now with
    a := v, f := { Flags.ofResult v with p := iff2, c := now.f.c } }

/-- RLD and RRD: new memory byte and new low digit of A from the old ones. -/
def rotateDigits (rotate : (memory a : UInt8) → UInt8 × UInt8) :
    Micro σ Unit := do
  let start ← regs
  let address := start.hl.toWord
  let v ← read8 address
  let (stored, digit) := rotate v start.a
  write8 address stored
  let a := (start.a / 16) * 16 + digit
  modifyRegs fun now => { now with
    a := a, f := { Flags.ofResultParity a with c := now.f.c },
    wz := address + 1 }

/-- Run an instruction; the result is its extra cost. -/
def Instruction.execute : Instruction → Micro σ Nat
  | .nop => return 0
  | .halt => do
    modify ({ · with halted := true })
    return 0
  | .di => do
    modify ({ · with iff1 := false, iff2 := false })
    return 0
  | .ei => do
    modify ({ · with iff1 := true, iff2 := true, eiShadow := true })
    return 0
  | .im mode => do
    modify ({ · with im := mode })
    return 0
  | .load dst src => do
    let v ← src.read
    (← dst.resolve).write v
    return 0
  | .loadImmediate dst => do
    let target ← dst.resolve
    target.write (← fetch8)
    return 0
  | .loadA source => do
    loadAFrom ((← regs).getAddress source)
    return 0
  | .storeA target => do
    storeATo ((← regs).getAddress target)
    return 0
  | .loadAAbsolute => do
    loadAFrom (← fetch16)
    return 0
  | .storeAAbsolute => do
    storeATo (← fetch16)
    return 0
  | .loadWordImmediate dst => do
    let w ← fetch16
    modifyRegs (·.putWord w dst)
    return 0
  | .loadWordAbsolute dst => do
    let w ← read16 (← absoluteWord)
    modifyRegs (·.putWord w dst)
    return 0
  | .storeWordAbsolute src => do
    let w := (← regs).getWord src
    write16 (← absoluteWord) w
    return 0
  | .loadSp x => do
    modifyRegs fun now => { now with sp := (now.index x).toWord }
    return 0
  | .push r => do
    Micro.push ((← regs).getStacked r)
    return 0
  | .pop r => do
    let w ← Micro.pop
    modifyRegs (·.putStacked w r)
    return 0
  | .exchangeAf => do
    modifyRegs fun now => { now with
      a := now.a2, f := now.f2, a2 := now.a, f2 := now.f }
    return 0
  | .exchangeShadows => do
    modifyRegs fun now => { now with
      bc := now.bc2, de := now.de2, hl := now.hl2, bc2 := now.bc, de2 := now.de,
      hl2 := now.hl }
    return 0
  | .exchangeDeHl => do
    modifyRegs fun now => { now with de := now.hl, hl := now.de }
    return 0
  | .exchangeTop x => do
    let w ← Micro.exchangeTop ((← regs).index x).toWord
    modifyRegs (·.setIndex x (.ofWord w))
    return 0
  | .alu op src => do
    let v ← src.read
    modifyRegs fun now =>
      let (a, f) := Alu.apply op now.a v now.f.c
      { now with a, f }
    return 0
  | .aluImmediate op => do
    let v ← fetch8
    modifyRegs fun now =>
      let (a, f) := Alu.apply op now.a v now.f.c
      { now with a, f }
    return 0
  | .increment o => do
    let target ← o.resolve
    let v ← target.read
    let (result, f) := Alu.increment8 v (← regs).f
    setFlags f
    target.write result
    return 0
  | .decrement o => do
    let target ← o.resolve
    let v ← target.read
    let (result, f) := Alu.decrement8 v (← regs).f
    setFlags f
    target.write result
    return 0
  | .incrementWord w => do
    modifyRegs fun now => now.putWord (now.getWord w + 1) w
    return 0
  | .decrementWord w => do
    modifyRegs fun now => now.putWord (now.getWord w - 1) w
    return 0
  | .addWord x w => do
    modifyRegs fun now =>
      let left := (now.index x).toWord
      let (result, f) := Alu.add16 left (now.getWord w) now.f
      { now.setIndex x (.ofWord result) with f, wz := left + 1 }
    return 0
  | .adcWord w => do
    modifyRegs fun now =>
      let left := now.hl.toWord
      let (result, f) := Alu.adc16 left (now.getWord w) now.f.c
      { now with hl := .ofWord result, f, wz := left + 1 }
    return 0
  | .sbcWord w => do
    modifyRegs fun now =>
      let left := now.hl.toWord
      let (result, f) := Alu.sbc16 left (now.getWord w) now.f.c
      { now with hl := .ofWord result, f, wz := left + 1 }
    return 0
  | .rotateA op => do
    modifyRegs fun now =>
      let (a, f) := Alu.rotateA op now.a now.f
      { now with a, f }
    return 0
  | .daa => do
    modifyRegs fun now =>
      let (a, f) := Alu.decimalAdjust now.a now.f
      { now with a, f }
    return 0
  | .cpl => do
    modifyRegs fun now =>
      let (a, f) := Alu.complement now.a now.f
      { now with a, f }
    return 0
  | .scf => do
    modifyRegs fun now => { now with f := Alu.setCarry now.a now.f }
    return 0
  | .ccf => do
    modifyRegs fun now => { now with f := Alu.flipCarry now.a now.f }
    return 0
  | .neg => do
    modifyRegs fun now =>
      let (a, f) := Alu.sub8 0 now.a false
      { now with a, f }
    return 0
  | .rotateDigitsLeft => do
    rotateDigits fun memory a => (memory * 16 + a % 16, memory / 16)
    return 0
  | .rotateDigitsRight => do
    rotateDigits fun memory a => (a * 16 + memory / 16, memory % 16)
    return 0
  | .bits op o => do
    op.apply (← o.resolve) none
    return 0
  | .jump => do
    goTo (← fetch16)
    return 0
  | .jumpIf cc => do
    let target ← fetch16
    setWz target
    if cc.holds (← regs).f then goTo target
    return 0
  | .jumpPointer x => do
    modifyRegs fun now => { now with pc := (now.index x).toWord }
    return 0
  | .jumpRelative => do
    jumpBy (← fetch8)
    return 0
  | .jumpRelativeIf cc => do
    let d ← fetch8
    if cc.holds (← regs).f then
      jumpBy d
      return jumpTaken
    else
      return 0
  | .djnz => do
    let d ← fetch8
    let b := (← regs).bc.high - 1
    modifyRegs fun now => { now with bc := { now.bc with high := b } }
    if b != 0 then
      jumpBy d
      return jumpTaken
    else
      return 0
  | .call => do
    callTo (← fetch16)
    return 0
  | .callIf cc => do
    let target ← fetch16
    setWz target
    if cc.holds (← regs).f then
      callTo target
      return callTaken
    else
      return 0
  | .ret => do
    returnFrom
    return 0
  | .retIf cc => do
    if cc.holds (← regs).f then
      returnFrom
      return returnTaken
    else
      return 0
  | .retn => do
    returnFrom
    modify fun cpu => { cpu with iff1 := cpu.iff2 }
    (← read).interrupts.finished
    return 0
  | .rst n => do
    callTo (UInt16.ofNat (8 * n.val))
    return 0
  | .storeI => do
    modifyRegs fun now => { now with i := now.a }
    return 0
  | .storeR => do
    modifyRegs fun now => { now with r := now.a }
    return 0
  | .loadI => do
    loadSpecial (← regs).i
    return 0
  | .loadR => do
    loadSpecial (← regs).r
    return 0
  | .inputA => do
    let n ← fetch8
    let port := (Pair.mk (← regs).a n).toWord
    let v ← Micro.input port
    modifyRegs ({ · with a := v, wz := port + 1 })
    return 0
  | .outputA => do
    let n ← fetch8
    let a := (← regs).a
    Micro.output (Pair.mk a n).toWord a
    setWz (Pair.mk a (n + 1)).toWord
    return 0
  | .input dst => do
    let port := (← regs).bc.toWord
    let v ← Micro.input port
    modifyRegs fun now =>
      let after := { now with
        f := { Flags.ofResultParity v with c := now.f.c }, wz := port + 1 }
      match dst with
      | some r => after.set v r
      | none => after
    return 0
  | .output src => do
    let start ← regs
    let v := match src with
      | some r => start.get r
      | none => 0
    Micro.output start.bc.toWord v
    setWz (start.bc.toWord + 1)
    return 0
  | .block action direction repeats => Block.run action direction repeats

end ConsoleBoard.Z80
