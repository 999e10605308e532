/-
The three controller ports of the console. Every device that the host has
made stays in one list and is named by its place there; ports and multitaps
refer to devices by that number, so exchanging a device keeps all its
connections. A multitap learns of its chained devices whenever the console
touches its port.
-/
import ConsoleBoard.Controller.Buttons
import ConsoleBoard.Controller.Model

namespace ConsoleBoard.Controller

/-- A physical port. -/
inductive Port
  | one | two | ext
deriving DecidableEq

namespace Port

def all : List Port := [one, two, ext]

def index : Port → Fin 3
  | one => 0
  | two => 1
  | ext => 2

/-- The port with a number from zero. -/
def ofIndex (i : Nat) : Except Error Port :=
  match all[i]? with
  | some port => .ok port
  | none => .error (.invalidPort i)

end Port

/-- The ports and the devices. -/
structure Hub where
  devices : Array Peripheral
  ports : Vector Nat 3
  version : UInt8

namespace Hub

/-- The version register of a console for overseas, at 60 Hz and without
expansion unit. -/
def hardwareVersion : UInt8 := 0xA0

/-- Number of byte registers. -/
def registerCount : Nat := 16

/-- The bits of a serial control register that can be written. -/
def serialControlMask : UInt8 := 0xF8

/-- Three empty ports. -/
def empty : Hub where
  devices := Array.replicate 3 (Device.create .none)
  ports := #v[0, 1, 2]
  version := hardwareVersion

def device? (hub : Hub) (id : Nat) : Option Peripheral := hub.devices[id]?

def deviceCount (hub : Hub) : Nat := hub.devices.size

/-- The device on a port. -/
def portDevice (hub : Hub) (port : Port) : Nat := hub.ports[port.index]

/-- Change one device. -/
def modify (hub : Hub) (id : Nat) (change : Peripheral → Peripheral) : Hub :=
  { hub with devices := hub.devices.modify id change }

-- ================================================================= devices

/-- Add a device that is connected nowhere; the result is its id. -/
def add (hub : Hub) (d : Peripheral) : Nat × Hub :=
  (hub.devices.size, { hub with devices := hub.devices.push d })

/-- Put another device in the place of one. -/
def replace (hub : Hub) (id : Nat) (d : Peripheral) : Except Error Hub :=
  if id < hub.devices.size then
    .ok { hub with devices := hub.devices.setIfInBounds id d }
  else .error (.invalidDevice id)

/-- Connect a device to a port. -/
def connect (hub : Hub) (port : Port) (id : Nat) : Except Error Hub :=
  if id < hub.devices.size then
    .ok { hub with ports := hub.ports.set port.index id }
  else .error (.invalidDevice id)

/-- Add a device of a kind and connect it. -/
def connectNew (hub : Hub) (port : Port) (kind : Kind) : Nat × Hub :=
  let (id, hub) := hub.add (Device.create (.ofKind kind))
  (id, { hub with ports := hub.ports.set port.index id })

/-- What a multitap sees of a device. -/
def chainedState (hub : Hub) (id : Nat) : Option Chained :=
  (hub.device? id).map fun d => { kind := d.kind, buttons := d.core.buttons }

/-- Show each state to the virtual port of its place, from `port` on. -/
def observeFrom (d : Peripheral) (port : Nat) :
    List (Option Chained) → Peripheral
  | [] => d
  | state :: rest => observeFrom (d.observe port state) (port + 1) rest

/-- Let a multitap see its chained devices; other devices are left alone. -/
def sync (hub : Hub) (id : Nat) : Hub :=
  match hub.device? id with
  | none => hub
  | some d =>
    if d.chained.isEmpty then hub
    else
      let states := d.chained.map fun sub => sub.bind hub.chainedState
      hub.modify id fun d => (observeFrom d 0 states).refresh

/-- Chain a device to a virtual port of a multitap, or clear the port. -/
def attach (hub : Hub) (tap port : Nat) (sub : Option Nat) : Except Error Hub :=
  match hub.device? tap with
  | none => .error (.invalidDevice tap)
  | some d =>
    match sub.filter fun id => decide (hub.devices.size ≤ id) || id == tap with
    | some id =>
      if id < hub.devices.size then .error (.selfReference id)
      else .error (.invalidDevice id)
    | none => do
      let d ← d.chain port sub
      return (hub.modify tap fun _ => d).sync tap

-- ============================================================== host input

/-- Latch new buttons. -/
def updateButtons (hub : Hub) (id : Nat) (buttons : UInt32) :
    Except Error Hub :=
  if id < hub.devices.size then
    .ok (hub.modify id fun d =>
      d.update (if d.hasDpad then constrainDpad buttons else buttons))
  else .error (.invalidDevice id)

/-- Latch new buttons on the device of a port. -/
def updatePort (hub : Hub) (port : Port) (buttons : UInt32) : Hub :=
  match hub.updateButtons (hub.portDevice port) buttons with
  | .ok hub => hub
  | .error _ => hub

/-- Move the pointer of a device. -/
def moveTo (hub : Hub) (id : Nat) (x y : Int) : Except Error Hub :=
  if id < hub.devices.size then .ok (hub.modify id fun d => d.moveTo x y)
  else .error (.invalidDevice id)

/-- A scanline has passed for every device. -/
def scanline (hub : Hub) : Hub :=
  { hub with devices := hub.devices.map Device.scanline }

/-- Hard reset of every device. -/
def reset (hub : Hub) : Hub :=
  let hub := { hub with devices := hub.devices.map Device.reset }
  Port.all.foldl (fun hub port => hub.sync (hub.portDevice port)) hub

/-- Clear the devices' counters and keep what the console wrote. -/
def resetDevices (hub : Hub) : Hub :=
  { hub with devices := hub.devices.map fun d => d.resetState.refresh }

-- ====================================================== the console's side

/-- Read the data register of a port. -/
def readData (hub : Hub) (port : Port) : UInt8 × Hub :=
  let id := hub.portDevice port
  let hub := (hub.sync id).modify id Device.noteRead
  (((hub.device? id).map Device.read).getD 0xFF, hub)

def writeData (hub : Hub) (port : Port) (v : UInt8) : Hub :=
  let id := hub.portDevice port
  (hub.sync id).modify id (·.writeData v)

/-- A field of the device on a port. -/
def portField (hub : Hub) (port : Port) (field : Core → UInt8) : UInt8 :=
  ((hub.device? (hub.portDevice port)).map fun d => field d.core).getD 0xFF

def readControl (hub : Hub) (port : Port) : UInt8 :=
  hub.portField port (·.control)

def writeControl (hub : Hub) (port : Port) (v : UInt8) : Hub :=
  let id := hub.portDevice port
  (hub.sync id).modify id (·.writeControl v)

/-- A byte register of the console's controller block. -/
inductive Register
  | version
  | data (port : Port)
  | control (port : Port)
  | transmit (port : Port)
  | receive (port : Port)
  | serialControl (port : Port)
deriving DecidableEq

/-- The registers in order of their index. -/
def registers : List Register :=
  [.version, .data .one, .data .two, .data .ext, .control .one, .control .two,
    .control .ext, .transmit .one, .receive .one, .serialControl .one,
    .transmit .two, .receive .two, .serialControl .two, .transmit .ext,
    .receive .ext, .serialControl .ext]

/-- Read a register by index; an index that names none reads as open bus, and
nothing is ever received. -/
def readRegister (hub : Hub) (index : Nat) : UInt8 × Hub :=
  match registers[index]? with
  | some .version => (hub.version, hub)
  | some (.data port) => hub.readData port
  | some (.control port) => (hub.readControl port, hub)
  | some (.transmit port) => (hub.portField port (·.serialTx), hub)
  | some (.receive _) => (0xFF, hub)
  | some (.serialControl port) => (hub.portField port (·.serialControl), hub)
  | none => (0xFF, hub)

/-- Write a register by index. -/
def writeRegister (hub : Hub) (index : Nat) (v : UInt8) : Hub :=
  match registers[index]? with
  | some .version => hub
  | some (.data port) => hub.writeData port v
  | some (.control port) => hub.writeControl port v
  | some (.transmit port) => hub.modify (hub.portDevice port) (·.setSerialTx v)
  | some (.receive _) => hub
  | some (.serialControl port) =>
    hub.modify (hub.portDevice port)
      (·.setSerialControl (v &&& serialControlMask))
  | none => hub

end Hub

end ConsoleBoard.Controller
