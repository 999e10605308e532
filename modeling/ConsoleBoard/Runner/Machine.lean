/-
The machine that the runner gives a program: 64 KiB of RAM and nothing else.
-/
import ConsoleBoard.Config.Error
import ConsoleBoard.Error
import ConsoleBoard.Memory.Flat
import ConsoleBoard.Z80.FetchMap
import ConsoleBoard.Z80.Run

namespace ConsoleBoard.Runner

open Z80

/-- A processor and its RAM. -/
structure Machine where
  z : Z80 := {}
  ram : FlatMemory := .zeroed

namespace Machine

/-- The RAM on the bus. -/
def plainBus : Bus FlatMemory :=
  .ofParts (FlatMemory.bus id (fun change ram => change ram)) .unconnected
    .unconnected

/-- The bus with fetches served from the RAM by windows. -/
def windowedBus (windows : FetchMap Unit) : Bus FlatMemory :=
  windows.serve (fun _ i ram => ram.lookup? i) plainBus

/-- A machine with a program at an address, and the processor there. RAM of full
size has a place for every byte. -/
def load (address : UInt16) (image : List UInt8) :
    Except ConsoleBoard.Error Machine :=
  if FlatMemory.addressSpace - address.toNat < image.length then
    .error (.config (.invalid (.longImage image.length address)))
  else
    let z : Z80 := {}
    .ok {
      z := z.onCpu fun cpu => { cpu with
        regs := { cpu.regs with pc := address } }
      ram := (FlatMemory.zeroed.load address image).2 }

/-- The bus of a machine, with its fetches through one window over all of the
RAM if that is wanted. -/
def busOf (windowed : Bool) (machine : Machine) :
    Except ConsoleBoard.Error (Bus FlatMemory) :=
  if windowed then do
    let windows ← ((FetchMap.empty : FetchMap Unit).install 0 0xFFFF ()
      machine.ram.bytes.size 0).mapError .cpu
    return windowedBus windows
  else .ok plainBus

def pc (machine : Machine) : UInt16 := machine.z.cpu.regs.pc

/-- One step. -/
def step (bus : Bus FlatMemory) (machine : Machine) : Machine :=
  match machine with
  | ⟨z, ram⟩ =>
    let ((_, z), ram) := stepOnce bus z ram
    ⟨z, ram⟩

/-- One frame, with an interrupt request before it if that is wanted. -/
def frame (bus : Bus FlatMemory) (budget : Nat) (irq : Bool)
    (machine : Machine) : Machine :=
  match machine with
  | ⟨z, ram⟩ =>
    let z := if irq then z.onCpu (·.requestIrq 0xFF) else z
    let ((_, z), ram) := exec bus budget z ram
    ⟨z, ram⟩

end Machine

end ConsoleBoard.Runner
