/-
A test bench for the processor: RAM, ports that answer from a list, the
controller ports and an EEPROM, and a recorder. The wiring says which of them
the processor reaches and what is recorded; it can be changed between runs,
and everything on the bench keeps its state.
-/
import ConsoleBoard.Bench.Access
import ConsoleBoard.Controller.Hub
import ConsoleBoard.Eeprom.Fault
import ConsoleBoard.Memory.Flat
import ConsoleBoard.Z80.FetchMap
import ConsoleBoard.Z80.Run

namespace ConsoleBoard

open Z80

namespace Bench

/-- A place that a fetch window can serve from. -/
inductive Buffer
  | ram
  | named (name : String)
deriving DecidableEq

/-- What the processor reaches as memory. -/
inductive MemoryWiring
  /-- Nothing. -/
  | unconnected
  /-- The RAM. -/
  | ram
  /-- The RAM, with each byte access recorded. -/
  | recorded
  /-- The RAM, with byte and word accesses recorded as such. -/
  | recordedWords
  /-- The RAM in the lower half, the EEPROM's lines at 8001h and the
  controller registers at 9000h to 900Fh. -/
  | console
deriving DecidableEq

/-- Who answers the acknowledge cycle. -/
inductive AcknowledgeWiring
  | unconnected
  /-- The vector comes back, recorded. -/
  | vector
  /-- A fixed byte, recorded. -/
  | byte (v : UInt8)
deriving DecidableEq

/-- The connections of the processor. -/
structure Wiring where
  memory : MemoryWiring := .unconnected
  /-- Answers of the ports in turn; without any the ports are not connected. -/
  replies : Array UInt8 := #[]
  acknowledge : AcknowledgeWiring := .unconnected
  windows : FetchMap Buffer := .empty

/-- The address of the EEPROM's lines. -/
def eepromAddress : UInt32 := 0x8001

/-- The EEPROM on the bench: clock on bit 1 and data on bit 0 of one byte. -/
def eepromMapper : Eeprom.Mapper where
  chip := .x24C01
  scl := ⟨eepromAddress, 1⟩
  sdaIn := ⟨eepromAddress, 0⟩
  sdaOut := ⟨eepromAddress, 0⟩

/-- The address of the first controller register. -/
def registerBase : UInt16 := 0x9000

end Bench

/-- The state of the bench. -/
structure Bench where
  ram : FlatMemory := .zeroed
  buffers : List (String × Array UInt8) := []
  /-- The place of the next port answer. -/
  nextReply : Nat := 0
  /-- What the recorder has written down, from the back. -/
  record : List Bench.Access := []
  hub : Controller.Hub := .empty
  eeprom : Eeprom := { Eeprom.blank with mapper := some Bench.eepromMapper }
  /-- A call has ended in a fault, and nothing after it counts. -/
  fault : Bool := false

namespace Bench

-- =================================================================== parts

/-- Change the RAM. -/
def onRam (b : Bench) (change : FlatMemory → FlatMemory) : Bench :=
  match b with
  | ⟨ram, buffers, nextReply, record, hub, eeprom, fault⟩ =>
    ⟨change ram, buffers, nextReply, record, hub, eeprom, fault⟩

/-- Load bytes into the RAM. -/
def loadRam (b : Bench) (address : UInt16) (image : List UInt8) : Bench :=
  match b with
  | ⟨ram, buffers, nextReply, record, hub, eeprom, fault⟩ =>
    let (result, ram) := ram.load address image
    ⟨ram, buffers, nextReply, record, hub, eeprom, fault || !result.isOk⟩

/-- Take what a call on the EEPROM's lines leads to. -/
def onEeprom (b : Bench) (result : Except Eeprom.Fault Eeprom) : Bench :=
  match result with
  | .ok eeprom => { b with eeprom }
  | .error _ => { b with fault := true }

/-- Write an access down. -/
def note (b : Bench) (access : Access) : Bench :=
  match b with
  | ⟨ram, buffers, nextReply, record, hub, eeprom, fault⟩ =>
    ⟨ram, buffers, nextReply, access :: record, hub, eeprom, fault⟩

/-- A named buffer; one that was never made is empty. -/
def buffer (b : Bench) (name : String) : Array UInt8 :=
  (b.buffers.lookup name).getD #[]

/-- Change a named buffer. -/
def onBuffer (b : Bench) (name : String)
    (change : Array UInt8 → Array UInt8) : Bench :=
  { b with buffers := b.buffers.map fun (key, bytes) =>
      if key = name then (key, change bytes) else (key, bytes) }

/-- Bytes in the buffer behind a window. -/
def available (b : Bench) : Buffer → Nat
  | .ram => b.ram.bytes.size
  | .named name => (b.buffer name).size

/-- How the buffer behind a window is held. -/
def hold (b : Bench) : Buffer → Hold
  | .ram => b.ram.hold
  | .named _ => .free

/-- A byte of the buffer behind a window. -/
def peek (buffer : Buffer) (i : Nat) (b : Bench) : Option UInt8 :=
  match buffer with
  | .ram => b.ram.lookup? i
  | .named name => (b.buffer name)[i]?

-- ================================================================== memory

def readRam (address : UInt16) (b : Bench) : UInt8 × Bench :=
  (b.ram.readByte address, b)

def writeRam (address : UInt16) (v : UInt8) (b : Bench) : Unit × Bench :=
  ((), b.onRam (·.writeByte address v))

/-- The RAM as memory. -/
def ramBus : MemoryBus Bench := .ofBytes readRam writeRam

def recordedBus : MemoryBus Bench :=
  .ofBytes
    (fun address b =>
      let v := b.ram.readByte address
      (v, b.note (.readByte address v)))
    (fun address v b =>
      ((), (b.note (.writeByte address v)).onRam (·.writeByte address v)))

def recordedWordsBus : MemoryBus Bench :=
  { recordedBus with
    readWord := fun address b =>
      let (w, b) := ramBus.readWord address b
      (w, b.note (.readWord address w))
    writeWord := fun address w b =>
      ramBus.writeWord address w (b.note (.writeWord address w)) }

/-- The index of the controller register at an address. -/
def registerIndex? (address : UInt16) : Option Nat :=
  let index := address - registerBase
  if index.toNat < Controller.Hub.registerCount then some index.toNat else none

def readConsole (address : UInt16) (b : Bench) : UInt8 × Bench :=
  if address < 0x8000 then (b.ram.readByte address, b)
  else if address.toUInt32 = eepromAddress then
    match b.eeprom.tryReadByte eepromAddress with
    | .ok v => (v, b)
    | .error _ => (openBusByte, { b with fault := true })
  else
    match registerIndex? address with
    | some index =>
      let (v, hub) := b.hub.readRegister index
      (v, { b with hub })
    | none => (openBusByte, b)

def writeConsole (address : UInt16) (v : UInt8) (b : Bench) : Unit × Bench :=
  if address < 0x8000 then writeRam address v b
  else if address.toUInt32 = eepromAddress then
    ((), b.onEeprom (b.eeprom.tryWriteByte eepromAddress v))
  else
    match registerIndex? address with
    | some index => ((), { b with hub := b.hub.writeRegister index v })
    | none => ((), b)

def consoleBus : MemoryBus Bench := .ofBytes readConsole writeConsole

def memoryBus : MemoryWiring → MemoryBus Bench
  | .unconnected => .unconnected
  | .ram => ramBus
  | .recorded => recordedBus
  | .recordedWords => recordedWordsBus
  | .console => consoleBus

-- ======================================================= ports, interrupts

/-- Ports that answer with the bytes of a list, over and over. -/
def scriptedPorts (replies : Array UInt8) : PortBus Bench where
  input port b :=
    let v := replies[b.nextReply % replies.size]?.getD openBusByte
    (v, { b with nextReply := b.nextReply + 1 }.note (.input port v))
  output port v b := ((), b.note (.output port v))

def portBus (replies : Array UInt8) : PortBus Bench :=
  if replies.isEmpty then .unconnected else scriptedPorts replies

/-- An acknowledge cycle that is recorded. -/
def recordedInterrupts (answer : UInt8 → UInt8) : InterruptBus Bench where
  acknowledge vector b :=
    (answer vector, b.note (.acknowledge vector (answer vector)))
  finished b := ((), b.note .finished)

def interruptBus : AcknowledgeWiring → InterruptBus Bench
  | .unconnected => .unconnected
  | .vector => recordedInterrupts id
  | .byte v => recordedInterrupts fun _ => v

/-- The bus of a wiring. -/
def Wiring.bus (w : Wiring) : Bus Bench :=
  w.windows.serve peek
    (.ofParts (memoryBus w.memory) (portBus w.replies)
      (interruptBus w.acknowledge))

end Bench

end ConsoleBoard
