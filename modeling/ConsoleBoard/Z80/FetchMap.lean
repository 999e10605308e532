/-
Fetch windows: address ranges whose code bytes come straight from a buffer
of the host. Windows are disjoint, since installing one removes those that
it overlaps, and they are listed by the 4 KiB banks that they meet, so a
fetch looks only at the windows of one bank.
-/
import ConsoleBoard.Memory.Hold
import ConsoleBoard.Text.Hex
import ConsoleBoard.Z80.Bus

namespace ConsoleBoard.Z80

/-- The addresses `low` to `high`, served from `buffer` at `offset` on. -/
structure FetchWindow (β : Type) where
  low : UInt16
  high : UInt16
  buffer : β
  offset : Nat
deriving DecidableEq

/-- Why a window is refused. -/
inductive FetchError
  | inverted (low high : UInt16)
  | shortBuffer (low high : UInt16) (offset available : Nat)
deriving DecidableEq

/-- Why a call does not get as far as an answer. -/
inductive BufferFault
  /-- The buffer is in the middle of a write. -/
  | held
deriving DecidableEq

namespace FetchWindow

variable {β : Type}

/-- Number of addresses. -/
def span (low high : UInt16) : Nat := high.toNat - low.toNat + 1

def contains (w : FetchWindow β) (address : UInt16) : Bool :=
  w.low ≤ address && address ≤ w.high

def overlaps (w : FetchWindow β) (low high : UInt16) : Bool :=
  w.low ≤ high && low ≤ w.high

/-- The place of an address in the buffer. -/
def position (w : FetchWindow β) (address : UInt16) : Nat :=
  w.offset + (address.toNat - w.low.toNat)

end FetchWindow

namespace FetchError

def reason : FetchError → String
  | inverted _ _ => "low address above high address"
  | shortBuffer low high offset available =>
    let need := toString (FetchWindow.span low high)
    "needs " ++ need ++ " bytes from offset " ++ toString offset
      ++ " but memory holds "
      ++ toString available

def range : FetchError → UInt16 × UInt16
  | inverted low high => (low, high)
  | shortBuffer low high _ _ => (low, high)

def message (e : FetchError) : String :=
  let (low, high) := e.range
  "Invalid fetch window 0x" ++ Text.hexUpper 4 low.toNat ++ "-0x"
    ++ Text.hexUpper 4 high.toNat
    ++ ": " ++ e.reason

end FetchError

/-- The bank of an address. -/
def bankOf (address : UInt16) : Fin 16 :=
  ⟨address.toNat / 4096, by have := address.toNat_lt; omega⟩

/-- The installed windows, and for each bank the indices of those that meet
it. -/
structure FetchMap (β : Type) where
  windows : List (FetchWindow β)
  banks : Vector (List Nat) 16

namespace FetchMap

variable {β : Type}

/-- The windows that meet a bank, by index from `start` on. -/
def meeting (bank : Fin 16) : (start : Nat) → List (FetchWindow β) → List Nat
  | _, [] => []
  | start, w :: rest =>
    if bankOf w.low ≤ bank ∧ bank ≤ bankOf w.high then
      start :: meeting bank (start + 1) rest
    else meeting bank (start + 1) rest

/-- A list of windows with its banks filled in. -/
def ofWindows (windows : List (FetchWindow β)) : FetchMap β where
  windows := windows
  banks := Vector.ofFn fun bank => meeting bank 0 windows

def empty : FetchMap β := ofWindows []

def size (map : FetchMap β) : Nat := map.windows.length

/-- Serve `low` to `high` from a buffer that holds `available` bytes. Windows
that overlap the range go away. -/
def install (map : FetchMap β) (low high : UInt16) (buffer : β)
    (available offset : Nat) :
    Except FetchError (FetchMap β) :=
  if high < low then
    .error (.inverted low high)
  else if available < offset + FetchWindow.span low high then
    .error (.shortBuffer low high offset available)
  else
    let kept := map.windows.filter fun w => !w.overlaps low high
    .ok (ofWindows (kept ++ [⟨low, high, buffer, offset⟩]))

/-- Serve `low` to `high` from a buffer as its host holds it. Once the range is
known to be in order the buffer is looked at for its length, and then nobody
may be writing it. -/
def setWindow (map : FetchMap β) (low high : UInt16) (buffer : β) (hold : Hold)
    (available offset : Nat) :
    Except BufferFault (Except FetchError (FetchMap β)) :=
  if low ≤ high ∧ hold = .exclusive then .error .held
  else .ok (map.install low high buffer available offset)

/-- The window that serves an address, found through its bank. -/
def find? (map : FetchMap β) (address : UInt16) : Option (FetchWindow β) :=
  (map.banks[bankOf address]).findSome? fun i =>
    (map.windows[i]?).filter fun w => w.contains address

/-- The bus with its fetches served by the windows first. `peek` reads a
buffer of the host; where it has no byte, memory answers. -/
def serve {σ : Type} (map : FetchMap β) (peek : β → Nat → σ → Option UInt8)
    (bus : Bus σ) :
    Bus σ :=
  { bus with
    fetch := fun address host =>
      match (map.find? address).bind fun w =>
        peek w.buffer (w.position address) host with
      | some v => (v, host)
      | none => bus.memory.readByte address host }

end FetchMap

end ConsoleBoard.Z80
