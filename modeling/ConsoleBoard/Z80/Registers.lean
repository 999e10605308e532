/-
The register file. A and F are kept apart, F as its conditions, because
nearly every instruction changes one of the two; the other pairs are kept
as two halves. R is one byte of which refresh cycles count only the low
seven bits. WZ is the internal address latch, visible only through the
undocumented flag bits.
-/
import ConsoleBoard.Pair
import ConsoleBoard.Z80.Flags

namespace ConsoleBoard.Z80

/-- The programmer-visible registers and WZ. -/
structure Registers where
  a : UInt8
  f : Flags
  bc : Pair
  de : Pair
  hl : Pair
  /-- Shadow accumulator. -/
  a2 : UInt8
  /-- Shadow flags. -/
  f2 : Flags
  /-- Shadow of `bc`. -/
  bc2 : Pair
  /-- Shadow of `de`. -/
  de2 : Pair
  /-- Shadow of `hl`. -/
  hl2 : Pair
  ix : Pair
  iy : Pair
  sp : UInt16
  pc : UInt16
  wz : UInt16
  i : UInt8
  r : UInt8
deriving DecidableEq, Inhabited

-- ========================================================== register names

/-- The byte registers that a host can name. -/
inductive ByteName
  | a | f | b | c | d | e | h | l | ixh | ixl | iyh | iyl | i
deriving DecidableEq

/-- The word registers that a host can name; a `2` marks a shadow pair. -/
inductive WordName
  | af | bc | de | hl | af2 | bc2 | de2 | hl2 | ix | iy | sp | pc | wz
deriving DecidableEq

/-- The pair that an instruction uses as its pointer: HL, or the index
register that the opcode bytes before it select. -/
inductive Index
  | hl | ix | iy
deriving DecidableEq

namespace Registers

/-- AF and SP come up with all bits set and everything else cleared. -/
def powerOn : Registers where
  a := 0xFF
  f := Flags.ofByte 0xFF
  bc := default
  de := default
  hl := default
  a2 := 0
  f2 := default
  bc2 := default
  de2 := default
  hl2 := default
  ix := default
  iy := default
  sp := 0xFFFF
  pc := 0
  wz := 0
  i := 0
  r := 0

/-- A over F. -/
def af (regs : Registers) : UInt16 := (Pair.mk regs.a regs.f.toByte).toWord

/-- Load A and F from the halves of a word. -/
def setAf (regs : Registers) (w : UInt16) : Registers :=
  { regs with a := (Pair.ofWord w).high, f := Flags.ofByte (Pair.ofWord w).low }

/-- Shadow A over shadow F. -/
def af2 (regs : Registers) : UInt16 := (Pair.mk regs.a2 regs.f2.toByte).toWord

/-- Load shadow A and F from the halves of a word. -/
def setAf2 (regs : Registers) (w : UInt16) : Registers :=
  { regs with a2 := (Pair.ofWord w).high,
              f2 := Flags.ofByte (Pair.ofWord w).low }

/-- The pair behind a pointer name. -/
def index (regs : Registers) : Index → Pair
  | .hl => regs.hl
  | .ix => regs.ix
  | .iy => regs.iy

def setIndex (regs : Registers) : Index → Pair → Registers
  | .hl, p => { regs with hl := p }
  | .ix, p => { regs with ix := p }
  | .iy, p => { regs with iy := p }

-- ========================================================== access by name

def byte (regs : Registers) : ByteName → UInt8
  | .a => regs.a
  | .f => regs.f.toByte
  | .b => regs.bc.high
  | .c => regs.bc.low
  | .d => regs.de.high
  | .e => regs.de.low
  | .h => regs.hl.high
  | .l => regs.hl.low
  | .ixh => regs.ix.high
  | .ixl => regs.ix.low
  | .iyh => regs.iy.high
  | .iyl => regs.iy.low
  | .i => regs.i

def setByte (regs : Registers) (v : UInt8) : ByteName → Registers
  | .a => { regs with a := v }
  | .f => { regs with f := Flags.ofByte v }
  | .b => { regs with bc := { regs.bc with high := v } }
  | .c => { regs with bc := { regs.bc with low := v } }
  | .d => { regs with de := { regs.de with high := v } }
  | .e => { regs with de := { regs.de with low := v } }
  | .h => { regs with hl := { regs.hl with high := v } }
  | .l => { regs with hl := { regs.hl with low := v } }
  | .ixh => { regs with ix := { regs.ix with high := v } }
  | .ixl => { regs with ix := { regs.ix with low := v } }
  | .iyh => { regs with iy := { regs.iy with high := v } }
  | .iyl => { regs with iy := { regs.iy with low := v } }
  | .i => { regs with i := v }

def word (regs : Registers) : WordName → UInt16
  | .af => regs.af
  | .bc => regs.bc.toWord
  | .de => regs.de.toWord
  | .hl => regs.hl.toWord
  | .af2 => regs.af2
  | .bc2 => regs.bc2.toWord
  | .de2 => regs.de2.toWord
  | .hl2 => regs.hl2.toWord
  | .ix => regs.ix.toWord
  | .iy => regs.iy.toWord
  | .sp => regs.sp
  | .pc => regs.pc
  | .wz => regs.wz

def setWord (regs : Registers) (w : UInt16) : WordName → Registers
  | .af => regs.setAf w
  | .bc => { regs with bc := Pair.ofWord w }
  | .de => { regs with de := Pair.ofWord w }
  | .hl => { regs with hl := Pair.ofWord w }
  | .af2 => regs.setAf2 w
  | .bc2 => { regs with bc2 := Pair.ofWord w }
  | .de2 => { regs with de2 := Pair.ofWord w }
  | .hl2 => { regs with hl2 := Pair.ofWord w }
  | .ix => { regs with ix := Pair.ofWord w }
  | .iy => { regs with iy := Pair.ofWord w }
  | .sp => { regs with sp := w }
  | .pc => { regs with pc := w }
  | .wz => { regs with wz := w }

-- ==================================================== the refresh register

/-- Count `n` refresh cycles: the low seven bits advance and bit 7 stays. -/
def refresh (r : UInt8) (n : Nat) : UInt8 :=
  (r / 128) * 128 + UInt8.ofNat ((r.toNat + n) % 128)

/-- Take one refresh cycle back. -/
def unrefresh (r : UInt8) : UInt8 := refresh r 127

end Registers

end ConsoleBoard.Z80
