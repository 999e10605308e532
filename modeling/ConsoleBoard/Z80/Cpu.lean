/-
The state of the processor core, and the small actions that instructions
are made of. An action reads the bus it runs on and threads the core and
the host, so one definition of the instruction set serves every host.
-/
import ConsoleBoard.Z80.Bus
import ConsoleBoard.Z80.Registers

namespace ConsoleBoard.Z80

/-- How a maskable interrupt finds its handler. -/
inductive InterruptMode
  | zero | one | two
deriving DecidableEq

namespace InterruptMode

def number : InterruptMode → Nat
  | zero => 0
  | one => 1
  | two => 2

/-- Every number above two selects mode two. -/
def ofNumber : Nat → InterruptMode
  | 0 => zero
  | 1 => one
  | _ => two

end InterruptMode

/-- The core between two instructions. -/
structure Cpu where
  regs : Registers
  iff1 : Bool
  iff2 : Bool
  im : InterruptMode
  /-- Vector latched by the last interrupt request. -/
  vector : UInt8
  irqPending : Bool
  nmiPending : Bool
  halted : Bool
  /-- Stopped by the host. -/
  faulted : Bool
  /-- Status bits without a meaning, kept from a restored snapshot. -/
  spareStatus : UInt8
  /-- The instruction before this boundary was EI. -/
  eiShadow : Bool
  /-- The boundary lies between two prefix bytes. -/
  prefixShadow : Bool
deriving DecidableEq

namespace Cpu

/-- The core after power-on or a hard reset. -/
def powerOn : Cpu where
  regs := .powerOn
  iff1 := false
  iff2 := false
  im := .zero
  vector := 0
  irqPending := false
  nmiPending := false
  halted := false
  faulted := false
  spareStatus := 0
  eiShadow := false
  prefixShadow := false

/-- The RESET line: PC, I, R, the interrupt logic and the stopped states are
cleared; the other registers keep their values. -/
def softReset (cpu : Cpu) : Cpu :=
  { cpu with
    regs := { cpu.regs with pc := 0, i := 0, r := 0 }
    iff1 := false
    iff2 := false
    im := .zero
    irqPending := false
    nmiPending := false
    halted := false
    faulted := false
    eiShadow := false
    prefixShadow := false }

/-- Raise the maskable interrupt line. -/
def requestIrq (cpu : Cpu) (vector : UInt8) : Cpu :=
  { cpu with vector := vector, irqPending := true }

end Cpu

-- =========================================================== small actions

/-- A piece of an instruction: it may use the bus and change the core. -/
abbrev Micro (σ : Type) := ReaderT (Bus σ) (StateT Cpu (StateM σ))

namespace Micro

variable {σ : Type}

def regs : Micro σ Registers := return (← get).regs

def modifyRegs (change : Registers → Registers) : Micro σ Unit :=
  modify fun cpu => { cpu with regs := change cpu.regs }

def setWz (w : UInt16) : Micro σ Unit := modifyRegs ({ · with wz := w })

def setA (v : UInt8) : Micro σ Unit := modifyRegs ({ · with a := v })

def setFlags (f : Flags) : Micro σ Unit := modifyRegs ({ · with f := f })

/-- Store what an arithmetic operation gave. -/
def setAf (result : UInt8 × Flags) : Micro σ Unit :=
  modifyRegs ({ · with a := result.1, f := result.2 })

/-- `n` refresh cycles. -/
def refresh (n : Nat) : Micro σ Unit :=
  modifyRegs fun regs => { regs with r := Registers.refresh regs.r n }

-- ------------------------------------------------------------------- fetching

/-- The next byte at PC. -/
def fetch8 : Micro σ UInt8 := do
  let pc := (← get).regs.pc
  modifyRegs ({ · with pc := pc + 1 })
  (← read).fetch pc

/-- An opcode byte: its fetch is also a refresh cycle. -/
def fetchOpcode : Micro σ UInt8 := do
  refresh 1
  fetch8

def fetch16 : Micro σ UInt16 := do
  let low ← fetch8
  let high ← fetch8
  return (Pair.mk high low).toWord

-- --------------------------------------------------------------- memory, ports

def read8 (address : UInt16) : Micro σ UInt8 :=
  do (← read).memory.readByte address

def write8 (address : UInt16) (v : UInt8) : Micro σ Unit := do
  (← read).memory.writeByte address v

def read16 (address : UInt16) : Micro σ UInt16 :=
  do (← read).memory.readWord address

def write16 (address : UInt16) (w : UInt16) : Micro σ Unit := do
  (← read).memory.writeWord address w

def input (port : UInt16) : Micro σ UInt8 := do (← read).ports.input port

def output (port : UInt16) (v : UInt8) : Micro σ Unit :=
  do (← read).ports.output port v

-- ---------------------------------------------------------------------- stack

def push (w : UInt16) : Micro σ Unit := do
  let sp := (← get).regs.sp - 2
  modifyRegs ({ · with sp := sp })
  write16 sp w

def pop : Micro σ UInt16 := do
  let sp := (← get).regs.sp
  let w ← read16 sp
  modifyRegs ({ · with sp := sp + 2 })
  return w

/-- Swap a word with the top of the stack; WZ takes the word that was there. -/
def exchangeTop (w : UInt16) : Micro σ UInt16 := do
  let sp := (← get).regs.sp
  let top ← read16 sp
  write16 sp w
  setWz top
  return top

-- ---------------------------------------------------------------- control flow

/-- Go to an address that WZ has carried. -/
def goTo (target : UInt16) : Micro σ Unit :=
  modifyRegs ({ · with pc := target, wz := target })

/-- Push PC and go to an address. -/
def callTo (target : UInt16) : Micro σ Unit := do
  push (← get).regs.pc
  goTo target

/-- Go to the address on top of the stack. -/
def returnFrom : Micro σ Unit := do goTo (← pop)

end Micro

/-- A displacement byte as a word to add: it counts from -128 to 127. -/
def signExtend (d : UInt8) : UInt16 :=
  if bit d 7 then d.toUInt16 + 0xFF00 else d.toUInt16

/-- Fetch a displacement and form the address of an indexed operand, which
WZ keeps. -/
def Micro.indexedAddress {σ : Type} (x : Index) : Micro σ UInt16 := do
  let d ← fetch8
  let address := ((← regs).index x).toWord + signExtend d
  setWz address
  return address

end ConsoleBoard.Z80
