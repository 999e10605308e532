/-
A recorder between a processor and its host. Two runs that reach the same
host may still have gone there by different accesses; with the recorder in
between, the accesses are part of what is reached, in order, so one
equation says both.

Only calls of the host are written down. A code byte that a fetch window
serves is none; one that no window has is a memory read like any other.
-/
import ConsoleBoard.Bench.Access
import ConsoleBoard.Z80.FetchMap

namespace ConsoleBoard.Z80

open Bench (Access)

variable {σ β α : Type}

/-- All that a processor is wired to, part by part. `peek` reads the buffer
behind a fetch window. -/
structure Parts (σ β : Type) where
  memory : MemoryBus σ
  ports : PortBus σ
  interrupts : InterruptBus σ
  windows : FetchMap β
  peek : β → Nat → σ → Option UInt8

/-- The bus of the parts. -/
def Parts.bus (parts : Parts σ β) : Bus σ :=
  parts.windows.serve parts.peek
    (.ofParts parts.memory parts.ports parts.interrupts)

/-- Call the host and write the access down behind the others. -/
def noting (access : α → Access) (call : StateM σ α) :
    StateM (σ × List Access) α := fun (host, log) =>
  ((call host).1, (call host).2, log ++ [access (call host).1])

def MemoryBus.recorded (bus : MemoryBus σ) : MemoryBus (σ × List Access) where
  readByte address := noting (.readByte address) (bus.readByte address)
  writeByte address v := noting (fun _ => .writeByte address v)
    (bus.writeByte address v)
  readWord address := noting (.readWord address) (bus.readWord address)
  writeWord address w := noting (fun _ => .writeWord address w)
    (bus.writeWord address w)

def PortBus.recorded (bus : PortBus σ) : PortBus (σ × List Access) where
  input port := noting (.input port) (bus.input port)
  output port v := noting (fun _ => .output port v) (bus.output port v)

def InterruptBus.recorded (bus : InterruptBus σ) :
    InterruptBus (σ × List Access) where
  acknowledge vector := noting (.acknowledge vector) (bus.acknowledge vector)
  finished := noting (fun _ => .finished) bus.finished

/-- The parts with a recorder between them and the processor. -/
def Parts.recorded (parts : Parts σ β) : Parts (σ × List Access) β where
  memory := parts.memory.recorded
  ports := parts.ports.recorded
  interrupts := parts.interrupts.recorded
  windows := parts.windows
  peek buffer i host := parts.peek buffer i host.1

/-- A processor that nothing is wired to. -/
def openBus : Parts Unit Unit where
  memory := .unconnected
  ports := .unconnected
  interrupts := .unconnected
  windows := .empty
  peek _ _ _ := none

end ConsoleBoard.Z80
