/-
Snapshots of a processor: everything that its future depends on, apart from
what it is wired to. Restoring makes the parts that have a range fit it, so
any record of the right shape can be restored.
-/
import ConsoleBoard.Z80.Run
import ConsoleBoard.Z80.Status

namespace ConsoleBoard.Z80

/-- The state of a processor as a record of plain numbers. -/
structure Snapshot where
  af : UInt16
  bc : UInt16
  de : UInt16
  hl : UInt16
  af2 : UInt16
  bc2 : UInt16
  de2 : UInt16
  hl2 : UInt16
  ix : UInt16
  iy : UInt16
  sp : UInt16
  pc : UInt16
  wz : UInt16
  i : UInt8
  r : UInt8
  iff1 : Bool
  iff2 : Bool
  im : UInt8
  irqVector : UInt8
  status : Status
  eiShadow : Bool
  prefixShadow : Bool
  /-- Overrun charged to the next run. -/
  carry : Int
deriving DecidableEq

/-- The status byte between two runs. -/
def Cpu.status (cpu : Cpu) : Status :=
  ⟨cpu.spareStatus
    ||| (if cpu.irqPending then Status.hasInt else 0)
    ||| (if cpu.nmiPending then Status.hasNmi else 0)
    ||| (if cpu.halted then Status.halted else 0)
    ||| (if cpu.faulted then Status.faulted else 0)⟩

/-- The register file of a snapshot. -/
def Snapshot.registers (s : Snapshot) : Registers where
  a := (Pair.ofWord s.af).high
  f := Flags.ofByte (Pair.ofWord s.af).low
  bc := Pair.ofWord s.bc
  de := Pair.ofWord s.de
  hl := Pair.ofWord s.hl
  a2 := (Pair.ofWord s.af2).high
  f2 := Flags.ofByte (Pair.ofWord s.af2).low
  bc2 := Pair.ofWord s.bc2
  de2 := Pair.ofWord s.de2
  hl2 := Pair.ofWord s.hl2
  ix := Pair.ofWord s.ix
  iy := Pair.ofWord s.iy
  sp := s.sp
  pc := s.pc
  wz := s.wz
  i := s.i
  r := s.r

/-- The core of a snapshot. That it was running is not kept. -/
def Snapshot.cpu (s : Snapshot) : Cpu where
  regs := s.registers
  iff1 := s.iff1
  iff2 := s.iff2
  im := InterruptMode.ofNumber s.im.toNat
  vector := s.irqVector
  irqPending := s.status.has Status.hasInt
  nmiPending := s.status.has Status.hasNmi
  halted := s.status.has Status.halted
  faulted := s.status.has Status.faulted
  spareStatus := s.status.bits &&& Status.spareMask
  eiShadow := s.eiShadow
  prefixShadow := s.prefixShadow

/-- Copy the state of a processor. -/
def snapshot (z : Z80) : Snapshot where
  af := z.cpu.regs.af
  bc := z.cpu.regs.bc.toWord
  de := z.cpu.regs.de.toWord
  hl := z.cpu.regs.hl.toWord
  af2 := z.cpu.regs.af2
  bc2 := z.cpu.regs.bc2.toWord
  de2 := z.cpu.regs.de2.toWord
  hl2 := z.cpu.regs.hl2.toWord
  ix := z.cpu.regs.ix.toWord
  iy := z.cpu.regs.iy.toWord
  sp := z.cpu.regs.sp
  pc := z.cpu.regs.pc
  wz := z.cpu.regs.wz
  i := z.cpu.regs.i
  r := z.cpu.regs.r
  iff1 := z.cpu.iff1
  iff2 := z.cpu.iff2
  im := UInt8.ofNat z.cpu.im.number
  irqVector := z.cpu.vector
  status := z.cpu.status
  eiShadow := z.cpu.eiShadow
  prefixShadow := z.cpu.prefixShadow
  carry := z.carriedCycles

/-- Load a snapshot. The count of all T-states so far is kept, and time given
back by the snapshot's host is not. -/
def restore (z : Z80) (s : Snapshot) : Z80 where
  cpu := s.cpu
  clock := { budget := 0, left := 0, carry := min s.carry 0,
             total := z.clock.total }

end ConsoleBoard.Z80
