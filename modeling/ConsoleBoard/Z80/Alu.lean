/-
Arithmetic on bytes and words, with the flags it leaves. Sums and borrows
are taken in the natural numbers, so carry and half carry are comparisons
of what was added; overflow is said with the signs of the operands and the
result, as the chip derives it. Nothing here touches a register: each
function gives the result and the whole new F.
-/
import ConsoleBoard.Z80.Flags

namespace ConsoleBoard.Z80

namespace Alu

/-- The eight operations that opcodes select by three bits. -/
inductive Op
  | add | adc | sub | sbc | and | xor | or | cp
deriving DecidableEq

-- =============================================================== byte sums

/-- `a + v + carry`. -/
def add8 (a v : UInt8) (carry : Bool) : UInt8 × Flags :=
  let sum := a.toNat + v.toNat + carry.toNat
  let result := UInt8.ofNat sum
  (result, { Flags.ofResult result with
    h := decide (15 < a.toNat % 16 + v.toNat % 16 + carry.toNat)
    p := bit a 7 == bit v 7 && bit a 7 != bit result 7
    c := decide (255 < sum) })

/-- `a - v - carry`. -/
def sub8 (a v : UInt8) (carry : Bool) : UInt8 × Flags :=
  let result := a - v - UInt8.ofNat carry.toNat
  (result, { Flags.ofResult result with
    h := decide (a.toNat % 16 < v.toNat % 16 + carry.toNat)
    p := bit a 7 != bit v 7 && bit a 7 != bit result 7
    n := true
    c := decide (a.toNat < v.toNat + carry.toNat) })

/-- The flags of a comparison: those of `a - v`, with the undocumented bits
taken from the operand. -/
def compare8 (a v : UInt8) : Flags :=
  { (sub8 a v false).2 with y := bit v 5, x := bit v 3 }

/-- Apply an operation to A and an operand: the new A and the new F. -/
def apply (op : Op) (a v : UInt8) (carry : Bool) : UInt8 × Flags :=
  match op with
  | .add => add8 a v false
  | .adc => add8 a v carry
  | .sub => sub8 a v false
  | .sbc => sub8 a v carry
  | .and => (a &&& v, { Flags.ofResultParity (a &&& v) with h := true })
  | .xor => (a ^^^ v, Flags.ofResultParity (a ^^^ v))
  | .or => (a ||| v, Flags.ofResultParity (a ||| v))
  | .cp => (a, compare8 a v)

/-- One more; carry is kept. -/
def increment8 (v : UInt8) (f : Flags) : UInt8 × Flags :=
  let result := v + 1
  (result, { Flags.ofResult result with
    h := decide (result.toNat % 16 = 0), p := result == 0x80, c := f.c })

/-- One less; carry is kept. -/
def decrement8 (v : UInt8) (f : Flags) : UInt8 × Flags :=
  let result := v - 1
  (result, { Flags.ofResult result with
    h := decide (v.toNat % 16 = 0), p := result == 0x7F, n := true, c := f.c })

-- =============================================================== word sums

/-- Bit `n` of a word. -/
def wordBit (w : UInt16) (n : Nat) : Bool := w.toNat.testBit n

/-- `left + right`; sign, zero and overflow are kept. -/
def add16 (left right : UInt16) (f : Flags) : UInt16 × Flags :=
  let result := left + right
  (result, { f with
    y := wordBit result 13
    h := decide (4095 < left.toNat % 4096 + right.toNat % 4096)
    x := wordBit result 11
    n := false
    c := decide (65535 < left.toNat + right.toNat) })

/-- `left + right + carry`. -/
def adc16 (left right : UInt16) (carry : Bool) : UInt16 × Flags :=
  let sum := left.toNat + right.toNat + carry.toNat
  let result := UInt16.ofNat sum
  (result,
    { s := wordBit result 15
      z := result == 0
      y := wordBit result 13
      h := decide (4095 < left.toNat % 4096 + right.toNat % 4096 + carry.toNat)
      x := wordBit result 11
      p := wordBit left 15 == wordBit right 15
        && wordBit left 15 != wordBit result 15
      n := false
      c := decide (65535 < sum) })

/-- `left - right - carry`. -/
def sbc16 (left right : UInt16) (carry : Bool) : UInt16 × Flags :=
  let result := left - right - UInt16.ofNat carry.toNat
  (result,
    { s := wordBit result 15
      z := result == 0
      y := wordBit result 13
      h := decide (left.toNat % 4096 < right.toNat % 4096 + carry.toNat)
      x := wordBit result 11
      p := wordBit left 15 != wordBit right 15
        && wordBit left 15 != wordBit result 15
      n := true
      c := decide (left.toNat < right.toNat + carry.toNat) })

-- ============================================================= adjustments

/-- What DAA adds or takes away: 6 in each decimal digit that a binary sum
has pushed past nine. -/
def decimalCorrection (a : UInt8) (f : Flags) : UInt8 :=
  (if f.h || decide (9 < a.toNat % 16) then 0x06 else 0)
    + (if f.c || decide (0x99 < a.toNat) then 0x60 else 0)

/-- DAA: make the digits of A decimal after an addition or subtraction of
two packed-decimal bytes. -/
def decimalAdjust (a : UInt8) (f : Flags) : UInt8 × Flags :=
  let correction := decimalCorrection a f
  let result := if f.n then a - correction else a + correction
  (result, { Flags.ofResultParity result with
    h := bit (a ^^^ result) 4
    n := f.n
    c := f.c || decide (0x99 < a.toNat) })

/-- CPL: invert A. -/
def complement (a : UInt8) (f : Flags) : UInt8 × Flags :=
  let result := ~~~a
  (result, { f with
      y := bit result 5, h := true, x := bit result 3, n := true })

/-- SCF. -/
def setCarry (a : UInt8) (f : Flags) : Flags :=
  { f with y := bit a 5, h := false, x := bit a 3, n := false, c := true }

/-- CCF: half carry takes the old carry. -/
def flipCarry (a : UInt8) (f : Flags) : Flags :=
  { f with y := bit a 5, h := f.c, x := bit a 3, n := false, c := !f.c }

-- ====================================================== rotates and shifts

/-- The eight rotates and shifts that opcodes select by three bits. `sll` is
undocumented and shifts a one in. -/
inductive Shift
  | rlc | rrc | rl | rr | sla | sra | sll | srl
deriving DecidableEq

/-- The shifted byte and the bit that fell out. -/
def shift (op : Shift) (v : UInt8) (carry : Bool) : UInt8 × Bool :=
  let low : UInt8 := if bit v 0 then 1 else 0
  let high : UInt8 := if bit v 7 then 1 else 0
  let carried : UInt8 := if carry then 1 else 0
  match op with
  | .rlc => (v * 2 + high, bit v 7)
  | .rrc => (v / 2 + low * 128, bit v 0)
  | .rl => (v * 2 + carried, bit v 7)
  | .rr => (v / 2 + carried * 128, bit v 0)
  | .sla => (v * 2, bit v 7)
  | .sra => (v / 2 + high * 128, bit v 0)
  | .sll => (v * 2 + 1, bit v 7)
  | .srl => (v / 2, bit v 0)

/-- A shift of the CB page: the result and the new F. -/
def shiftFlags (op : Shift) (v : UInt8) (carry : Bool) : UInt8 × Flags :=
  let (result, out) := shift op v carry
  (result, { Flags.ofResultParity result with c := out })

/-- The one-byte rotates of A keep sign, zero and parity. -/
def rotateA (op : Shift) (a : UInt8) (f : Flags) : UInt8 × Flags :=
  let (result, out) := shift op a f.c
  (result, { f with
      y := bit result 5, h := false, x := bit result 3, n := false, c := out })

-- ============================================================= single bits

/-- The byte with only bit `n` set. -/
def mask (n : Fin 8) : UInt8 := UInt8.ofNat (1 <<< n.val)

/-- BIT: zero and parity say that the bit is clear, and sign that bit 7 was
tested and set. The undocumented bits come from `source`. -/
def testBit (n : Fin 8) (v source : UInt8) (f : Flags) : Flags :=
  { s := n == 7 && bit v 7
    z := !bit v n
    y := bit source 5
    h := true
    x := bit source 3
    p := !bit v n
    n := false
    c := f.c }

end Alu

end ConsoleBoard.Z80
