/-
One step of the processor: an interrupt that is taken, or one refresh cycle
of a halted core, or one instruction with the page bytes before it. Every
step says how many T-states it took.
-/
import ConsoleBoard.Z80.Execute

namespace ConsoleBoard.Z80

open Micro

variable {σ : Type}

-- ================================================================ dispatch

/-- T-states of a page byte before an opcode. -/
def pageCost : Nat := 4

/-- T-states of one refresh cycle of a halted core. -/
def haltCost : Nat := 4

/-- Run a decoded instruction behind `lead` T-states of page bytes. -/
def perform (lead : Nat) (i : Instruction) : Micro σ Nat := do
  let extra ← i.execute
  return lead + i.cost + extra

/-- The doubly prefixed page: displacement, then opcode, neither of them an
opcode fetch. The operand is always the indexed byte, and the result is
copied to the register that the opcode names. -/
def indexedBits (x : Index) : Micro σ Nat := do
  let address ← indexedAddress x
  let op ← fetch8
  let bits := BitOp.ofOpcode op
  bits.apply (.cell address) (ByteReg.ofCode? .hl (column op))
  return 2 * pageCost + (Instruction.bits bits (.memory x)).cost

/-- A prefix byte in front of another one does nothing but hold interrupts
off: the second is decoded again in the next step. -/
def heldPrefix : Micro σ Nat := do
  modify fun cpu => { cpu with
    regs := { cpu.regs with
      pc := cpu.regs.pc - 1, r := Registers.unrefresh cpu.regs.r }
    prefixShadow := true }
  return pageCost

/-- What follows DD or FD. -/
def indexed (x : Index) : Micro σ Nat := do
  let op ← fetchOpcode
  match op with
  | 0xDD => heldPrefix
  | 0xED => heldPrefix
  | 0xFD => heldPrefix
  | 0xCB => indexedBits x
  | _ => perform pageCost (Instruction.ofOpcode x op)

/-- Run the instruction whose first byte has been fetched. -/
def dispatch (op : UInt8) : Micro σ Nat :=
  match op with
  | 0xCB => do perform pageCost (Instruction.ofBitOpcode (← fetchOpcode))
  | 0xED => do perform pageCost (Instruction.ofExtendedOpcode (← fetchOpcode))
  | 0xDD => indexed .ix
  | 0xFD => indexed .iy
  | _ => perform 0 (Instruction.ofOpcode .hl op)

/-- Fetch and run one instruction. -/
def instruction : Micro σ Nat := do
  modify ({ · with eiShadow := false, prefixShadow := false })
  dispatch (← fetchOpcode)

-- ============================================================== interrupts

/-- The interrupts that a core can take. -/
inductive Interrupt
  | nmi | irq
deriving DecidableEq

/-- The interrupt that is taken at this boundary. Nothing is taken between
prefix bytes; the maskable one also waits for IFF1 and for the instruction
after EI. -/
def Cpu.acceptable (cpu : Cpu) : Option Interrupt :=
  if cpu.prefixShadow then none
  else if cpu.nmiPending then some .nmi
  else if cpu.irqPending && cpu.iff1 && !cpu.eiShadow then some .irq
  else none

/-- Enter the handler at 0066h. -/
def acceptNmi : Micro σ Nat := do
  modify ({ · with nmiPending := false, halted := false, iff1 := false })
  refresh 1
  callTo 0x0066
  return 11

/-- The address that mode zero jumps to: a restart that the peripheral puts
on the bus, and the one of mode one for anything else. -/
def restartOf (data : UInt8) : UInt16 :=
  if data &&& 0xC7 = 0xC7 then (data &&& 0x38).toUInt16 else 0x0038

/-- Enter the handler that the interrupt mode and the peripheral select. -/
def acceptIrq : Micro σ Nat := do
  modify ({ · with
      irqPending := false, halted := false, iff1 := false, iff2 := false })
  refresh 1
  let data ← (← read).interrupts.acknowledge (← get).vector
  push (← regs).pc
  match (← get).im with
  | .zero =>
    goTo (restartOf data)
    return 13
  | .one =>
    goTo 0x0038
    return 13
  | .two =>
    goTo (← read16 (Pair.mk (← regs).i data).toWord)
    return 19

def Interrupt.accept : Interrupt → Micro σ Nat
  | .nmi => acceptNmi
  | .irq => acceptIrq

/-- One step. -/
def step : Micro σ Nat := do
  let cpu ← get
  match cpu.acceptable with
  | some request => request.accept
  | none =>
    if cpu.halted then
      refresh 1
      return haltCost
    else
      instruction

end ConsoleBoard.Z80
