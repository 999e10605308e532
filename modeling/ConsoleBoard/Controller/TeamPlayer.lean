/-
The four-way multitap. After TH falls it shows one nibble of a sequence, and
every change of TR brings the next: a fixed header, the type of each virtual
port, the buttons of each pad, and then nothing more until TH rises.
-/
import ConsoleBoard.Controller.Device

namespace ConsoleBoard.Controller

/-- The virtual ports of a multitap: the ids of the chained devices, and what
was last seen of each. -/
structure TeamPlayer where
  ports : Vector (Option Nat) 4
  seen : Vector (Option Chained) 4

namespace TeamPlayer

/-- Number of virtual ports. -/
def portCount : Nat := 4

def empty : TeamPlayer where
  ports := Vector.replicate 4 none
  seen := Vector.replicate 4 none

-- ============================================================ the sequence

/-- The nibbles before the types. -/
def header : List UInt8 := [0x0F, 0x00, 0x00]

/-- The nibble when nothing is left. -/
def idle : UInt8 := 0x0F

/-- The type of a virtual port: pads with three and six buttons have one, and
everything else counts as empty. -/
def typeCode (state : Option Chained) : UInt8 :=
  match state.map Chained.kind with
  | some .threeButton => 0x00
  | some .sixButton => 0x01
  | _ => 0x0F

/-- How many nibbles of buttons a virtual port sends. -/
def dataCount (state : Option Chained) : Nat :=
  match state.map Chained.kind with
  | some .threeButton => 2
  | some .sixButton => 3
  | _ => 0

/-- Nibble `k` of a button word. -/
def buttonNibble (state : Option Chained) (k : Nat) : UInt8 :=
  match state with
  | some s => UInt8.ofNat ((s.buttons.toNat >>> (4 * k)) % 16)
  | none => idle

/-- Nibble `k` of the buttons of the ports in turn. -/
def dataNibble : List (Option Chained) → (k : Nat) → UInt8
  | [], _ => idle
  | state :: rest, k =>
    if k < dataCount state then buttonNibble state k
    else dataNibble rest (k - dataCount state)

/-- The nibble at a place of the sequence. -/
def nibble (tap : TeamPlayer) (k : Nat) : UInt8 :=
  if k < 3 then header.getD k idle
  else if k < 3 + portCount then typeCode ((tap.seen[k - 3]?).join)
  else dataNibble tap.seen.toList (k - 3 - portCount)

-- ============================================================== the answer

/-- The answer of a multitap. While TH is low TL repeats TR, which tells the
console that the nibble is ready. -/
def drive (tap : TeamPlayer) (core : Core) : Drive :=
  if core.line .th then
    { counter := 0, scanlines := core.scanlines, data := 0xF3 }
  else
    let counter :=
      if core.fell .th then 0
      else if core.rose .tr || core.fell .tr then saturated (core.counter + 1)
      else core.counter
    let ready : UInt8 := if core.line .tr then 0x10 else 0x00
    { counter, scanlines := core.scanlines,
      data := 0xE0 ||| ready ||| tap.nibble counter }

-- =============================================================== the chain

/-- Chain a device to a virtual port. What was seen of a removed device is
forgotten. -/
def chain (tap : TeamPlayer) (port : Nat) (sub : Option Nat) :
    Except Error TeamPlayer :=
  if h : port < 4 then
    .ok {
      ports := tap.ports.set port sub
      seen := if sub.isNone then tap.seen.set port none else tap.seen }
  else .error (.virtualPortOutOfRange port portCount)

def observe (tap : TeamPlayer) (port : Nat) (state : Option Chained) :
    TeamPlayer :=
  if h : port < 4 then { tap with seen := tap.seen.set port state } else tap

end TeamPlayer

end ConsoleBoard.Controller
