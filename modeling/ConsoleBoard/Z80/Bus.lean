/-
What the processor is wired to. A bus is a record of state machines over
one state, the host's: the processor owns neither memory nor ports, and
learns of them only through these calls. Reads may change the host, since
latches and controller ports do. Opcode and operand bytes have their own
call, so a host may serve them from a faster place than its memory.
-/
import ConsoleBoard.Pair

namespace ConsoleBoard.Z80

/-- The value of a read that nothing answers. -/
def openBusByte : UInt8 := 0xFF

/-- Access to the 64 KiB memory space. -/
structure MemoryBus (σ : Type) where
  readByte : UInt16 → StateM σ UInt8
  writeByte : UInt16 → UInt8 → StateM σ Unit
  readWord : UInt16 → StateM σ UInt16
  writeWord : UInt16 → UInt16 → StateM σ Unit

/-- Access to the port space. The whole 16-bit port address is passed. -/
structure PortBus (σ : Type) where
  input : UInt16 → StateM σ UInt8
  output : UInt16 → UInt8 → StateM σ Unit

/-- The interrupt acknowledge cycle, and the notice that a handler has
returned. -/
structure InterruptBus (σ : Type) where
  /-- From the latched vector, the byte that the peripheral drives. -/
  acknowledge : UInt8 → StateM σ UInt8
  /-- Runs after RETI or RETN. -/
  finished : StateM σ Unit

/-- Everything that the processor can reach. -/
structure Bus (σ : Type) where
  memory : MemoryBus σ
  ports : PortBus σ
  interrupts : InterruptBus σ
  /-- Read an opcode or operand byte. -/
  fetch : UInt16 → StateM σ UInt8

variable {σ : Type}

-- ======================================================== byte-wide memory

/-- Memory with a byte-wide path: a word is two accesses, low byte first,
and the second wraps to address zero. -/
def MemoryBus.ofBytes (readByte : UInt16 → StateM σ UInt8)
    (writeByte : UInt16 → UInt8 → StateM σ Unit) : MemoryBus σ where
  readByte := readByte
  writeByte := writeByte
  readWord address := do
    let low ← readByte address
    let high ← readByte (address + 1)
    return (Pair.mk high low).toWord
  writeWord address w := do
    writeByte address (Pair.ofWord w).low
    writeByte (address + 1) (Pair.ofWord w).high

-- ================================================================ open bus

/-- Reads float high and writes vanish. -/
def MemoryBus.unconnected : MemoryBus σ :=
  .ofBytes (fun _ => return openBusByte) (fun _ _ => return ())

def PortBus.unconnected : PortBus σ where
  input _ := return openBusByte
  output _ _ := return ()

/-- The acknowledge cycle returns the latched vector. -/
def InterruptBus.unconnected : InterruptBus σ where
  acknowledge vector := return vector
  finished := return ()

/-- A bus whose fetches are plain memory reads. -/
def Bus.ofParts (memory : MemoryBus σ) (ports : PortBus σ)
    (interrupts : InterruptBus σ) :
    Bus σ where
  memory := memory
  ports := ports
  interrupts := interrupts
  fetch := memory.readByte

/-- The bus of a processor that nothing is wired to. -/
def Bus.unconnected : Bus σ := .ofParts .unconnected .unconnected .unconnected

end ConsoleBoard.Z80
