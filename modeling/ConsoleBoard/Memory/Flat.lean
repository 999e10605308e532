/-
Flat RAM: one buffer behind the whole address space. The buffer is shared
with the host, which may shorten it or hold it during a call; a read that
the buffer cannot serve floats high and a write that it cannot take
vanishes, so no access of the processor fails. The calls that the host itself
makes are less forgiving: they end in a fault where the buffer is held, and a
load also where the buffer has no place for a byte.
-/
import ConsoleBoard.Memory.Hold
import ConsoleBoard.Z80.Bus

namespace ConsoleBoard

open Z80

/-- Bytes from address zero up, normally for all 65536 addresses. -/
structure FlatMemory where
  bytes : Array UInt8
  hold : Hold := .free

namespace FlatMemory

/-- Why a call of the host comes to nothing. -/
inductive Fault
  | held
  /-- The buffer has no such index. -/
  | outside (index size : Nat)
deriving DecidableEq

/-- Number of addresses. -/
def addressSpace : Nat := 65536

/-- RAM of full size, all zero. -/
def zeroed : FlatMemory := { bytes := Array.replicate addressSpace 0 }

/-- The byte at an index, if the buffer may be read and reaches that far. -/
def lookup? (m : FlatMemory) (i : Nat) : Option UInt8 :=
  match m.hold with
  | .exclusive => none
  | _ => m.bytes[i]?

def readByte (m : FlatMemory) (address : UInt16) : UInt8 :=
  (m.lookup? address.toNat).getD openBusByte

def writeByte (m : FlatMemory) (address : UInt16) (v : UInt8) : FlatMemory :=
  match m with
  | ⟨bytes, .free⟩ => ⟨bytes.setIfInBounds address.toNat v, .free⟩
  | ⟨bytes, hold⟩ => ⟨bytes, hold⟩

@[simp] theorem size_writeByte (m : FlatMemory) (a : UInt16) (v : UInt8) :
    (m.writeByte a v).bytes.size = m.bytes.size := by
  obtain ⟨bytes, hold⟩ := m
  cases hold with
  | free => exact Array.size_setIfInBounds
  | shared | exclusive => rfl

@[simp] theorem hold_writeByte (m : FlatMemory) (a : UInt16) (v : UInt8) :
    (m.writeByte a v).hold = m.hold := by
  obtain ⟨bytes, hold⟩ := m
  cases hold <;> rfl

/-- A byte is read back where the buffer has a place for it. -/
theorem readByte_writeByte {m : FlatMemory} (hfree : m.hold = .free)
    (a a' : UInt16) (v : UInt8) :
    (m.writeByte a v).readByte a'
      = if a' = a ∧ a.toNat < m.bytes.size then v else m.readByte a' := by
  obtain ⟨bytes, hold⟩ := m
  cases hfree
  show (bytes.setIfInBounds a.toNat v)[a'.toNat]?.getD openBusByte
    = if a' = a ∧ a.toNat < bytes.size then v
      else bytes[a'.toNat]?.getD openBusByte
  rw [Array.getElem?_setIfInBounds]
  by_cases hsame : a' = a
  · subst hsame
    by_cases hplace : a'.toNat < bytes.size
    · rw [if_pos rfl, if_pos hplace, if_pos ⟨rfl, hplace⟩]
      rfl
    · rw [if_pos rfl, if_neg hplace, if_neg fun h => hplace h.2,
        getElem?_neg bytes _ hplace]
  · rw [if_neg fun h => hsame (UInt16.toNat_inj.1 h.symm),
      if_neg fun h => hsame h.1]

/-- Bytes in a buffer from an address on, wrapping to zero at the end of the
address space, as far as every index exists. -/
def copyInto (buffer : Array UInt8) (address : UInt16) :
    List UInt8 → Except Fault Unit × Array UInt8
  | [] => (.ok (), buffer)
  | v :: rest =>
    if h : address.toNat < buffer.size then
      copyInto (buffer.set address.toNat v) (address + 1) rest
    else (.error (.outside address.toNat buffer.size), buffer)

/-- Copy bytes from an address on. A load that ends in a fault has stored the
bytes before it. -/
def load (m : FlatMemory) (address : UInt16) (image : List UInt8) :
    Except Fault Unit × FlatMemory :=
  match m with
  | ⟨bytes, .free⟩ =>
    let (result, bytes) := copyInto bytes address image
    (result, ⟨bytes, .free⟩)
  | ⟨bytes, hold⟩ => (.error .held, ⟨bytes, hold⟩)

/-- The byte at an address, for the host. -/
def peek (m : FlatMemory) (address : UInt16) : Except Fault UInt8 :=
  match m.hold with
  | .exclusive => .error .held
  | _ => .ok (m.bytes[address.toNat]?.getD openBusByte)

/-- `n` bytes from an address on, wrapping. -/
def dump (m : FlatMemory) (address : UInt16) : Nat → Except Fault (List UInt8)
  | 0 => return []
  | n + 1 => return (← m.peek address) :: (← dump m (address + 1) n)

/-- Cut the buffer to its first `n` bytes. -/
def truncate (m : FlatMemory) (n : Nat) : FlatMemory :=
  { m with bytes := m.bytes.take n }

/-- Byte-wide access to a memory that the host state contains. -/
def bus {σ : Type} (view : σ → FlatMemory)
    (update : (FlatMemory → FlatMemory) → σ → σ) :
    MemoryBus σ :=
  .ofBytes (fun address host => ((view host).readByte address, host))
    (fun address v host => ((), update (·.writeByte address v) host))

end FlatMemory

end ConsoleBoard
