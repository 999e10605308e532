/-
Devices. A protocol says how a device answers the lines and what it keeps
besides its core; everything else about a device (registers, edges, what the
console reads) follows from that one answer and is the same for all kinds. A
device answers after every write of the console and every input of the host,
and only the answer to a write sees its edges.
-/
import ConsoleBoard.Controller.Core
import ConsoleBoard.Controller.Error
import ConsoleBoard.Controller.Kind

namespace ConsoleBoard.Controller

/-- A device's answer: its counters and what it drives. -/
structure Drive where
  counter : Nat
  scanlines : Nat
  data : UInt8
deriving DecidableEq

/-- How devices with own state `π` behave. -/
class Protocol (π : Type) where
  kind : π → Kind
  /-- Whether buttons 0 to 3 are the directions of a pad. -/
  hasDpad : π → Bool
  /-- The answer to the present lines, edges, buttons, pointer and pins. -/
  respond : Core → π → Drive × π
  /-- Whether a scanline clears the counters and is answered; otherwise it is
  only counted. -/
  restartsOnScanline : π → Bool
  /-- Whether a read of the port flips the lowest bit of the counter and is
  answered. -/
  togglesOnRead : π → Bool
  /-- The devices chained to the virtual ports. -/
  chained : π → List (Option Nat)
  /-- Chain a device to a virtual port, or remove it. Devices without virtual
  ports accept this and ignore it. -/
  chain : π → Nat → Option Nat → Except Error π
  /-- Take note of the state of a chained device. -/
  observe : π → Nat → Option Chained → π

/-- A device of some family. -/
structure Device (π : Type) where
  core : Core
  own : π

namespace Device

variable {π : Type} [Protocol π]

/-- Change the core alone. -/
def onCore (d : Device π) (change : Core → Core) : Device π :=
  { d with core := change d.core }

/-- Let the device answer. -/
def respond (d : Device π) : Device π :=
  let (drive, own) := Protocol.respond d.core d.own
  let core := { d.core with
    counter := drive.counter, scanlines := drive.scanlines }
  { core := core.setDeviceData drive.data, own }

/-- Let the device see the lines and answer; afterwards its edges are past. -/
def refresh (d : Device π) : Device π :=
  (d.onCore Core.senseLines).respond.onCore fun core =>
    core.refreshOutput.latchLines

/-- Clear the counters and keep what the console wrote. -/
def resetState (d : Device π) : Device π := d.onCore Core.resetCounters

/-- Hard reset. -/
def reset (d : Device π) : Device π :=
  (d.onCore Core.resetSystem).resetState.refresh

/-- A device just built. -/
def create (own : π) : Device π := (Device.mk Core.fresh own).reset

def kind (d : Device π) : Kind := Protocol.kind d.own

def hasDpad (d : Device π) : Bool := Protocol.hasDpad d.own

-- ============================================================== host input

/-- Latch new buttons. -/
def update (d : Device π) (buttons : UInt32) : Device π :=
  (d.onCore fun core => { core with
      buttonsBefore := core.buttons, buttons }).refresh

/-- Move the pointer. -/
def moveTo (d : Device π) (x y : Int) : Device π :=
  (d.onCore fun core => { core with x, y }).refresh

/-- Set pins 5 and 8; other bits are dropped. -/
def setPin58 (d : Device π) (v : UInt8) : Device π :=
  (d.onCore fun core => { core with pin58 := v &&& 0x03 }).refresh

/-- A scanline has passed. -/
def scanline (d : Device π) : Device π :=
  if Protocol.restartsOnScanline d.own then
    (d.onCore Core.resetCounters).respond
  else
    d.onCore fun core => { core with
      scanlines := saturated (core.scanlines + 1) }

/-- The console has read the port. -/
def noteRead (d : Device π) : Device π :=
  if Protocol.togglesOnRead d.own then
    (d.onCore fun core => { core with counter := core.counter ^^^ 1 }).respond
  else d

-- ====================================================== the console's side

def writeControl (d : Device π) (v : UInt8) : Device π :=
  (d.onCore fun core => { core with control := v }).refresh

def writeData (d : Device π) (v : UInt8) : Device π :=
  (d.onCore fun core => { core with systemData := v }).refresh

/-- The value of the port. -/
def read (d : Device π) : UInt8 := d.core.output

def setSerialControl (d : Device π) (v : UInt8) : Device π :=
  d.onCore fun core => { core with serialControl := v }

def setSerialTx (d : Device π) (v : UInt8) : Device π :=
  d.onCore fun core => { core with serialTx := v }

-- =============================================================== multitaps

def chained (d : Device π) : List (Option Nat) := Protocol.chained d.own

def chain (d : Device π) (port : Nat) (sub : Option Nat) :
    Except Error (Device π) :=
  (Protocol.chain d.own port sub).map fun own => { d with own }

def observe (d : Device π) (port : Nat) (state : Option Chained) : Device π :=
  { d with own := Protocol.observe d.own port state }

end Device

/-- A core's own counters with new data: the answer of a device that counts
nothing. -/
def Core.drive (core : Core) (data : UInt8) : Drive :=
  { counter := core.counter, scanlines := core.scanlines, data }

end ConsoleBoard.Controller
