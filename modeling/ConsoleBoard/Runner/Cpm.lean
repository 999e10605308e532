/-
Programs for CP/M. Such a program starts at 0100h, prints through calls to
0005h, and ends with a jump to 0000h. The machine stops at these two
addresses; in between it takes plain steps.
-/
import ConsoleBoard.Runner.Machine

namespace ConsoleBoard.Runner.Cpm

open Z80

/-- Where programs start. -/
def programArea : UInt16 := 0x0100

/-- Where a program goes to end. -/
def warmBoot : UInt16 := 0x0000

/-- Where a program calls the system. -/
def systemEntry : UInt16 := 0x0005

/-- The stack at the start. -/
def initialStack : UInt16 := 0xFFFE

/-- The opcode RET. -/
def ret : UInt8 := 0xC9

/-- A machine ready to run a program: the stack holds a return to the warm
boot, and a call to the system returns by itself. RAM of full size has the three
places. -/
def prepare (machine : Machine) : Machine where
  z := machine.z.onCpu fun cpu => { cpu with
    regs := { cpu.regs with sp := initialStack } }
  ram := ((machine.ram.load initialStack [0, 0]).2.load systemEntry [ret]).2

/-- A call to the system. -/
inductive Call
  /-- Print these bytes. -/
  | print (bytes : List UInt8)
  | unknown (function : UInt8)
deriving DecidableEq

/-- The call that the registers ask for: function 2 prints the byte in E, and
function 9 the bytes from DE up to a dollar sign or the end of memory. -/
def call (machine : Machine) : Call :=
  let regs := machine.z.cpu.regs
  match regs.bc.low with
  | 2 => .print [regs.de.low]
  | 9 =>
    let start := regs.de.toWord.toNat
    let all := (List.range (FlatMemory.addressSpace - start)).map fun i =>
      machine.ram.readByte (UInt16.ofNat (start + i))
    .print (all.takeWhile (· ≠ 0x24))
  | function => .unknown function

/-- Whether the program needs the system before its next step. -/
def isStopped (machine : Machine) : Bool :=
  machine.pc == warmBoot || machine.pc == systemEntry || machine.z.cpu.halted

/-- Plain steps until the program needs the system, at most `limit`. -/
def advance (bus : Bus FlatMemory) (limit : Nat) (machine : Machine) :
    Machine :=
  match limit with
  | 0 => machine
  | limit + 1 =>
    if isStopped machine then machine
    else advance bus limit (machine.step bus)

end ConsoleBoard.Runner.Cpm
