/-
The flag register as eight named conditions. The byte form matters only
where F is moved as a whole (PUSH AF, snapshots); every instruction speaks
of the conditions. Bits 3 and 5 are undocumented: most instructions copy
them from their result.
-/

namespace ConsoleBoard.Z80

/-- The conditions held in F. -/
structure Flags where
  /-- Sign, bit 7. -/
  s : Bool := false
  /-- Zero, bit 6. -/
  z : Bool := false
  /-- Undocumented bit 5. -/
  y : Bool := false
  /-- Half carry, bit 4. -/
  h : Bool := false
  /-- Undocumented bit 3. -/
  x : Bool := false
  /-- Parity or overflow, bit 2. -/
  p : Bool := false
  /-- Subtract, bit 1. -/
  n : Bool := false
  /-- Carry, bit 0. -/
  c : Bool := false
deriving DecidableEq, Inhabited

/-- Bit `n` of a byte. -/
def bit (v : UInt8) (n : Nat) : Bool := v.toNat.testBit n

/-- Whether a byte has an even number of one bits. -/
def evenParity (v : UInt8) : Bool :=
  !(bit v 0 ^^ bit v 1 ^^ bit v 2 ^^ bit v 3 ^^ bit v 4 ^^ bit v 5 ^^ bit v 6
    ^^ bit v 7)

namespace Flags

/-- The byte whose bits are the conditions. -/
def toByte (f : Flags) : UInt8 :=
  (if f.s then 0x80 else 0) + (if f.z then 0x40 else 0)
    + (if f.y then 0x20 else 0) + (if f.h then 0x10 else 0)
    + (if f.x then 0x08 else 0) + (if f.p then 0x04 else 0)
    + (if f.n then 0x02 else 0) + (if f.c then 0x01 else 0)

/-- The conditions that a byte stands for. -/
def ofByte (v : UInt8) : Flags :=
  ⟨bit v 7, bit v 6, bit v 5, bit v 4, bit v 3, bit v 2, bit v 1, bit v 0⟩

@[simp] theorem ofByte_toByte (f : Flags) : ofByte f.toByte = f := by
  rcases f with ⟨s, z, y, h, x, p, n, c⟩
  cases s <;> cases z <;> cases y <;> cases h <;> cases x <;> cases p
    <;> cases n <;> cases c <;>
    decide

@[simp] theorem toByte_ofByte (v : UInt8) : (ofByte v).toByte = v := by
  have all : ∀ n : Fin 256, (ofByte (UInt8.ofFin n)).toByte
      = UInt8.ofFin n := by decide +kernel
  exact all v.toFin

-- ====================================================== what a result says

/-- Sign, zero and the two undocumented bits of a result byte. -/
def ofResult (v : UInt8) : Flags :=
  { s := bit v 7, z := v == 0, y := bit v 5, x := bit v 3 }

/-- As `ofResult`, with the parity of the byte. -/
def ofResultParity (v : UInt8) : Flags :=
  { ofResult v with p := evenParity v }

end Flags

end ConsoleBoard.Z80
