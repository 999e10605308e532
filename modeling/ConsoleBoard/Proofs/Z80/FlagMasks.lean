/-
The flags of arithmetic, as bit masks.

An implementation of the chip that keeps F as one byte computes the flags with
masks: it adds in a wider word, takes the carry from the bit above, and takes
the half carry and the overflow from exclusive ors of the operands and the
result (`Masked`). Here a flag is a named condition, and a carry is a comparison
of what was added. This module says that the two are the same byte and the same
result, for every operand and every earlier F.

# The carry out of a digit

A bit of a sum is the exclusive or of the operands' bits and of the carry into
it, so the exclusive or of all three is that carry (`carry_shown`). A
difference is the same fact read backwards: what was subtracted from is the sum
of the result and of what was subtracted. The half carry is the carry into bit
4 of a byte or bit 12 of a word (`half_sum`, `half_difference` and their
counterparts on words).

# The rest

The bit of a mask is the mask of the bits (`bit_and` and its neighbours), so
each condition of the masked byte is a Boolean expression in single bits, with
the constants evaluated.
-/
import Mathlib.Data.Nat.Bitwise
import ConsoleBoard.Z80.Alu

namespace ConsoleBoard.Z80

-- ========================================================== bits of a byte

theorem bit_and (v w : UInt8) (n : Nat) :
    bit (v &&& w) n = (bit v n && bit w n) := by
  unfold bit
  rw [UInt8.toNat_and, Nat.testBit_and]

private theorem bit_or (v w : UInt8) (n : Nat) :
    bit (v ||| w) n = (bit v n || bit w n) := by
  unfold bit
  rw [UInt8.toNat_or, Nat.testBit_or]

private theorem bit_xor (v w : UInt8) (n : Nat) :
    bit (v ^^^ w) n = (bit v n ^^ bit w n) := by
  unfold bit
  rw [UInt8.toNat_xor, Nat.testBit_xor]

private theorem bit_not (v : UInt8) {n : Nat} (hn : n < 8) :
    bit (~~~v) n = !bit v n := by
  show (~~~v.toBitVec).getLsbD n = !v.toBitVec.getLsbD n
  rw [BitVec.getLsbD_not, decide_eq_true hn, Bool.true_and]

private theorem bit_shiftRight (v s : UInt8) {n : Nat} (hs : s.toNat < 8) :
    bit (v >>> s) n = bit v (n + s.toNat) := by
  unfold bit
  rw [UInt8.toNat_shiftRight, Nat.testBit_shiftRight, Nat.mod_eq_of_lt hs,
    Nat.add_comm]

/-- A bit of a constant, in a form that evaluates. -/
theorem bit_literal (k n : Nat) :
    bit (no_index (OfNat.ofNat k)) n = (1 &&& (k % 256) >>> n != 0) := rfl

/-- The bits of F are its conditions. -/
theorem Flags.bits_toByte (f : Flags) :
    bit f.toByte 7 = f.s ∧ bit f.toByte 6 = f.z ∧ bit f.toByte 5 = f.y
      ∧ bit f.toByte 4 = f.h ∧ bit f.toByte 3 = f.x ∧ bit f.toByte 2 = f.p
      ∧ bit f.toByte 1 = f.n ∧ bit f.toByte 0 = f.c := by
  have h := Flags.ofByte_toByte f
  exact ⟨congrArg Flags.s h, congrArg Flags.z h, congrArg Flags.y h,
    congrArg Flags.h h,
    congrArg Flags.x h, congrArg Flags.p h, congrArg Flags.n h,
    congrArg Flags.c h⟩

/-- F as a byte is determined by its conditions. -/
theorem Flags.toByte_eq_of_ofByte {f : Flags} {v : UInt8}
    (h : Flags.ofByte v = f) :
    f.toByte = v := by
  rw [← h, Flags.toByte_ofByte]

namespace Alu

-- ========================================================== bits of a word

private theorem wordBit_and (v w : UInt16) (n : Nat) :
    wordBit (v &&& w) n = (wordBit v n && wordBit w n) := by
  unfold wordBit
  rw [UInt16.toNat_and, Nat.testBit_and]

private theorem wordBit_xor (v w : UInt16) (n : Nat) :
    wordBit (v ^^^ w) n = (wordBit v n ^^ wordBit w n) := by
  unfold wordBit
  rw [UInt16.toNat_xor, Nat.testBit_xor]

private theorem wordBit_not (v : UInt16) {n : Nat} (hn : n < 16) :
    wordBit (~~~v) n = !wordBit v n := by
  show (~~~v.toBitVec).getLsbD n = !v.toBitVec.getLsbD n
  rw [BitVec.getLsbD_not, decide_eq_true hn, Bool.true_and]

/-- A bit of a constant, in a form that evaluates. -/
theorem wordBit_literal (k n : Nat) :
    wordBit (no_index (OfNat.ofNat k)) n = (1 &&& (k % 65536) >>> n != 0) := rfl

/-- A word shifted into a byte. -/
theorem bit_narrowed (w s : UInt16) {n : Nat} (hn : n < 8) (hs : s.toNat < 16) :
    bit (w >>> s).toUInt8 n = wordBit w (n + s.toNat) := by
  show ((w >>> s).toUInt8.toNat).testBit n = _
  rw [UInt16.toNat_toUInt8, UInt16.toNat_shiftRight, Nat.mod_eq_of_lt hs]
  have hmod := Nat.testBit_mod_two_pow (w.toNat >>> s.toNat) 8 n
  rw [decide_eq_true hn, Bool.true_and, Nat.testBit_shiftRight,
    Nat.add_comm] at hmod
  exact hmod

-- =============================================================== the masks

/-- The byte where the condition holds, and zero elsewhere. -/
def onlyIf (p : Bool) (v : UInt8) : UInt8 := if p then v else 0

private theorem bit_onlyIf (p : Bool) (v : UInt8) (n : Nat) :
    bit (onlyIf p v) n = (p && bit v n) := by
  cases p
  case false => exact Nat.zero_testBit n
  case true => rfl

namespace Masked

/-- S, Z and the undocumented bits of a result, as they lie in F. -/
def result (v : UInt8) : UInt8 := (v &&& 0xA8) ||| onlyIf (v == 0) 0x40

/-- As `result`, with P for an even number of ones. -/
def resultParity (v : UInt8) : UInt8 :=
  result v ||| onlyIf ((List.range 8).countP (bit v) % 2 == 0) 0x04

/-- H from the carry into bit 4. -/
def half (a v sum : UInt8) : UInt8 := (a ^^^ v ^^^ sum) &&& 0x10

/-- P/V from the signs of the operands and of the result. -/
def overflow (a v sum : UInt8) : UInt8 :=
  ((a ^^^ v) &&& (a ^^^ sum) &&& 0x80) >>> (5 : UInt8)

/-- The high byte of a word. -/
def highByte (w : UInt16) : UInt8 := (w >>> 8).toUInt8

/-- P/V from the signs of words. -/
def overflowWord (a v sum : UInt16) : UInt8 :=
  (((a ^^^ v) &&& (a ^^^ sum) &&& 0x8000) >>> (13 : UInt16)).toUInt8

-- ============================================================ on the bytes

/-- `a + v + carry`, in a word. -/
def add8 (a v : UInt8) (carry : Bool) : UInt8 × UInt8 :=
  let wide := a.toUInt16 + v.toUInt16 + carry.toUInt16
  let sum := wide.toUInt8
  (sum, result sum ||| half a v sum ||| overflow a (~~~v) sum
    ||| onlyIf (decide (0xFF < wide)) 0x01)

/-- `a - v - carry`, in a word. -/
def sub8 (a v : UInt8) (carry : Bool) : UInt8 × UInt8 :=
  let wide := a.toUInt16 - v.toUInt16 - carry.toUInt16
  let rest := wide.toUInt8
  (rest, 0x02 ||| result rest ||| half a v rest ||| overflow a v rest
    ||| onlyIf (wide &&& 0x100 != 0) 0x01)

/-- The flags of `a - v`, with the undocumented bits of the operand. -/
def compare8 (a v : UInt8) : UInt8 :=
  ((sub8 a v false).2 &&& ~~~0x28) ||| (v &&& 0x28)

def increment8 (v f : UInt8) : UInt8 × UInt8 :=
  let sum := v + 1
  (sum, (f &&& 0x01) ||| result sum ||| onlyIf (sum &&& 0x0F == 0) 0x10
    ||| onlyIf (sum == 0x80) 0x04)

def decrement8 (v f : UInt8) : UInt8 × UInt8 :=
  let rest := v - 1
  (rest, (f &&& 0x01) ||| 0x02 ||| result rest ||| onlyIf (v &&& 0x0F == 0) 0x10
    ||| onlyIf (rest == 0x7F) 0x04)

-- ============================================================ on the words

/-- `left + right`, in a double word; S, Z and P/V are kept. -/
def add16 (left right : UInt16) (f : UInt8) : UInt16 × UInt8 :=
  let wide := left.toUInt32 + right.toUInt32
  let sum := wide.toUInt16
  (sum, (f &&& 0xC4) ||| (highByte sum &&& 0x28)
    ||| (highByte (left ^^^ right ^^^ sum) &&& 0x10)
    ||| onlyIf (decide (0xFFFF < wide)) 0x01)

/-- `left + right + carry`, in a double word. -/
def adc16 (left right : UInt16) (carry : Bool) : UInt16 × UInt8 :=
  let wide := left.toUInt32 + right.toUInt32 + carry.toUInt32
  let sum := wide.toUInt16
  (sum, (highByte sum &&& 0xA8) ||| onlyIf (sum == 0) 0x40
    ||| (highByte (left ^^^ right ^^^ sum) &&& 0x10)
    ||| overflowWord left (~~~right) sum
    ||| onlyIf (decide (0xFFFF < wide)) 0x01)

/-- `left - right - carry`, in a double word. -/
def sbc16 (left right : UInt16) (carry : Bool) : UInt16 × UInt8 :=
  let wide := left.toUInt32 - right.toUInt32 - carry.toUInt32
  let rest := wide.toUInt16
  (rest, 0x02 ||| (highByte rest &&& 0xA8) ||| onlyIf (rest == 0) 0x40
    ||| (highByte (left ^^^ right ^^^ rest) &&& 0x10)
    ||| overflowWord left right rest
    ||| onlyIf (wide &&& 0x10000 != 0) 0x01)

-- ============================================================= adjustments

/-- DAA on A and F. -/
def decimalAdjust (a f : UInt8) : UInt8 × UInt8 :=
  let low := onlyIf (f &&& 0x10 != 0 || decide (9 < a &&& 0x0F)) 0x06
  let carry := f &&& 0x01 != 0 || decide (0x99 < a)
  let correction := low ||| onlyIf carry 0x60
  let adjusted := if f &&& 0x02 != 0 then a - correction else a + correction
  (adjusted, resultParity adjusted ||| ((a ^^^ adjusted) &&& 0x10)
    ||| (f &&& 0x02)
    ||| onlyIf carry 0x01)

/-- CPL on A and F. -/
def complement (a f : UInt8) : UInt8 × UInt8 :=
  (~~~a, (f &&& 0xC5) ||| 0x12 ||| (~~~a &&& 0x28))

/-- SCF. -/
def setCarry (a f : UInt8) : UInt8 := (f &&& 0xC4) ||| 0x01 ||| (a &&& 0x28)

/-- CCF. -/
def flipCarry (a f : UInt8) : UInt8 :=
  (f &&& 0xC4) ||| (a &&& 0x28) ||| (if f &&& 0x01 != 0 then 0x10 else 0x01)

end Masked

-- ================================================================= carries

/-- A bit of a sum, beside the bits of what was added, shows the carry into
it. -/
theorem carry_shown {w : Nat} {x y z : BitVec w} {c : Bool}
    (hsum : z = x + y + BitVec.setWidth w (BitVec.ofBool c)) {i : Nat}
    (hi : i < w) :
    (x.getLsbD i ^^ y.getLsbD i ^^ z.getLsbD i) = BitVec.carry i x y c := by
  rw [hsum, BitVec.getLsbD_add_add_bool hi]
  cases x.getLsbD i <;> cases y.getLsbD i <;> cases BitVec.carry i x y c <;> rfl

/-- The half carry of a byte sum. -/
theorem half_sum {a v sum : UInt8} {c : Bool}
    (h : sum.toNat = (a.toNat + v.toNat + c.toNat) % 256) :
    bit (a ^^^ v ^^^ sum) 4 = decide
      (15 < a.toNat % 16 + v.toNat % 16 + c.toNat) := by
  have hsum : sum.toBitVec
      = a.toBitVec + v.toBitVec + BitVec.setWidth 8 (BitVec.ofBool c) := by
    apply BitVec.eq_of_toNat_eq
    rw [BitVec.toNat_add, BitVec.toNat_add, BitVec.toNat_setWidth,
      BitVec.toNat_ofBool, Nat.mod_add_mod, Nat.add_mod_mod]
    exact h
  rw [bit_xor, bit_xor]
  exact carry_shown hsum (i := 4) (by decide)

/-- The half carry of a byte difference. -/
theorem half_difference {a v rest : UInt8} {c : Bool}
    (h : a.toNat = (rest.toNat + v.toNat + c.toNat) % 256) :
    bit (a ^^^ v ^^^ rest) 4 = decide
      (a.toNat % 16 < v.toNat % 16 + c.toNat) := by
  have hxor : a ^^^ v ^^^ rest = rest ^^^ v ^^^ a := by
    rw [UInt8.xor_comm, UInt8.xor_comm a, UInt8.xor_assoc]
  rw [hxor, half_sum h, decide_eq_decide]
  omega

/-- The half carry of a word sum. -/
private theorem half_sumWord {a v sum : UInt16} {c : Bool}
    (h : sum.toNat = (a.toNat + v.toNat + c.toNat) % 65536) :
    wordBit (a ^^^ v ^^^ sum) 12
      = decide (4095 < a.toNat % 4096 + v.toNat % 4096 + c.toNat) := by
  have hsum : sum.toBitVec
      = a.toBitVec + v.toBitVec + BitVec.setWidth 16 (BitVec.ofBool c) := by
    apply BitVec.eq_of_toNat_eq
    rw [BitVec.toNat_add, BitVec.toNat_add, BitVec.toNat_setWidth,
      BitVec.toNat_ofBool, Nat.mod_add_mod, Nat.add_mod_mod]
    exact h
  rw [wordBit_xor, wordBit_xor]
  exact carry_shown hsum (i := 12) (by decide)

/-- The half carry of a word difference. -/
private theorem half_differenceWord {a v rest : UInt16} {c : Bool}
    (h : a.toNat = (rest.toNat + v.toNat + c.toNat) % 65536) :
    wordBit (a ^^^ v ^^^ rest) 12
      = decide (a.toNat % 4096 < v.toNat % 4096 + c.toNat) := by
  have hxor : a ^^^ v ^^^ rest = rest ^^^ v ^^^ a := by
    rw [UInt16.xor_comm, UInt16.xor_comm a, UInt16.xor_assoc]
  rw [hxor, half_sumWord h, decide_eq_decide]
  omega

/-- The bits of a byte result and its signs, read out of their masks. -/
theorem ofByte_masked (a v u r : UInt8) (c : Bool) :
    Flags.ofByte
      (Masked.result r ||| Masked.half a v r ||| Masked.overflow a u r
        ||| onlyIf c 0x01)
      = { Flags.ofResult r with
          h := bit (a ^^^ v ^^^ r) 4
          p := (bit a 7 != bit u 7) && (bit a 7 != bit r 7)
          c := c } := by
  simp [Flags.ofByte, Flags.ofResult, Masked.result, Masked.half,
    Masked.overflow, bit_or, bit_and, bit_xor, bit_shiftRight, bit_onlyIf,
    bit_literal]

/-- The subtract flag beside others. -/
theorem ofByte_subtract (v : UInt8) :
    Flags.ofByte (0x02 ||| v) = { Flags.ofByte v with n := true } := by
  simp [Flags.ofByte, bit_or, bit_literal]

/-- The bits of a word result and its signs, read out of their masks. -/
private theorem ofByte_maskedWord (a v u r : UInt16) (c : Bool) :
    Flags.ofByte ((Masked.highByte r &&& 0xA8) ||| onlyIf (r == 0) 0x40
        ||| (Masked.highByte (a ^^^ v ^^^ r) &&& 0x10)
        ||| Masked.overflowWord a u r
        ||| onlyIf c 0x01)
      = { s := wordBit r 15
          z := r == 0
          y := wordBit r 13
          h := wordBit (a ^^^ v ^^^ r) 12
          x := wordBit r 11
          p := (wordBit a 15 != wordBit u 15) && (wordBit a 15 != wordBit r 15)
          n := false
          c := c } := by
  simp [Flags.ofByte, Masked.highByte, Masked.overflowWord, bit_or, bit_and,
    bit_narrowed, wordBit_and, wordBit_xor, bit_onlyIf, bit_literal,
    wordBit_literal]

/-- The sum of two bytes and a carry, in masks. -/
theorem add8_masked (a v : UInt8) (carry : Bool) :
    Prod.map id Flags.toByte (add8 a v carry) = Masked.add8 a v carry := by
  have ha := a.toNat_lt
  have hv := v.toNat_lt
  have hc := carry.toNat_le
  -- the word is wide enough: no sum of two bytes and a carry wraps it
  have hwide : (a.toUInt16 + v.toUInt16 + carry.toUInt16).toNat
      = a.toNat + v.toNat + carry.toNat := by
    have hbit : carry.toUInt16.toNat = carry.toNat := by cases carry <;> rfl
    rw [UInt16.toNat_add, UInt16.toNat_add, UInt8.toNat_toUInt16,
      UInt8.toNat_toUInt16, hbit]
    omega
  have hsum : UInt8.ofNat (a.toNat + v.toNat + carry.toNat)
      = (a.toUInt16 + v.toUInt16 + carry.toUInt16).toUInt8 := by
    rw [← UInt8.toNat_inj, UInt16.toNat_toUInt8, hwide]
    exact UInt8.toNat_ofNat'
  have hcarry : decide (0xFF < a.toUInt16 + v.toUInt16 + carry.toUInt16)
      = decide (255 < a.toNat + v.toNat + carry.toNat) := by
    rw [decide_eq_decide, UInt16.lt_iff_toNat_lt, hwide]
    rfl
  refine Prod.ext hsum (Flags.toByte_eq_of_ofByte ?_)
  show Flags.ofByte
    (Masked.result _ ||| Masked.half a v _ ||| Masked.overflow a (~~~v) _
    ||| onlyIf _ 0x01) = _
  rw [ofByte_masked, hcarry, half_sum (c := carry), ← hsum,
    bit_not v (by decide)]
  · dsimp only
    cases bit a 7 <;> cases bit v 7 <;> rfl
  · rw [← hsum]
    exact UInt8.toNat_ofNat'

/-- A borrow out of a byte is the ninth bit of the difference. -/
theorem ninthBit (w : UInt16) :
    (w &&& 0x100 != 0) = decide (w.toNat / 256 % 2 = 1) := by
  have hbit : w.toNat.testBit 8 = decide (w.toNat / 256 % 2 = 1) :=
    Nat.testBit_eq_decide_div_mod_eq
  rw [← hbit, Bool.eq_iff_iff, bne_iff_ne, ne_eq, ← UInt16.toNat_inj,
    UInt16.toNat_and]
  show ¬w.toNat &&& 2 ^ 8 = 0 ↔ _
  rw [Nat.and_two_pow]
  cases w.toNat.testBit 8 <;> simp

/-- The difference of two bytes and a borrow, in masks. -/
private theorem sub8_masked (a v : UInt8) (carry : Bool) :
    Prod.map id Flags.toByte (sub8 a v carry) = Masked.sub8 a v carry := by
  have ha := a.toNat_lt
  have hv := v.toNat_lt
  have hc := carry.toNat_le
  have hwide : (a.toUInt16 - v.toUInt16 - carry.toUInt16).toNat
      = (65536 + a.toNat - (v.toNat + carry.toNat)) % 65536 := by
    have hbit : carry.toUInt16.toNat = carry.toNat := by cases carry <;> rfl
    rw [UInt16.toNat_sub, UInt16.toNat_sub, UInt8.toNat_toUInt16,
      UInt8.toNat_toUInt16, hbit]
    omega
  have hrest : a - v - UInt8.ofNat carry.toNat
      = (a.toUInt16 - v.toUInt16 - carry.toUInt16).toUInt8 := by
    rw [← UInt8.toNat_inj, UInt16.toNat_toUInt8, hwide, UInt8.toNat_sub,
      UInt8.toNat_sub, UInt8.toNat_ofNat']
    omega
  have hcarry : (a.toUInt16 - v.toUInt16 - carry.toUInt16 &&& 0x100 != 0)
      = decide (a.toNat < v.toNat + carry.toNat) := by
    rw [ninthBit, decide_eq_decide, hwide]
    omega
  refine Prod.ext hrest (Flags.toByte_eq_of_ofByte ?_)
  show Flags.ofByte (0x02 ||| Masked.result _ ||| Masked.half a v _
    ||| Masked.overflow a v _
    ||| onlyIf _ 0x01) = _
  rw [UInt8.or_assoc, UInt8.or_assoc, UInt8.or_assoc, ofByte_subtract,
    ← UInt8.or_assoc, ← UInt8.or_assoc, ofByte_masked, hcarry,
    half_difference (c := carry), ← hrest]
  · rw [UInt16.toNat_toUInt8, hwide]
    omega

/-- CP shows the operand in the undocumented flags. -/
theorem compare8_masked (a v : UInt8) :
    (compare8 a v).toByte = Masked.compare8 a v := by
  have hsub : Flags.ofByte (Masked.sub8 a v false).2 = (sub8 a v false).2 := by
    rw [← sub8_masked]
    exact Flags.ofByte_toByte _
  refine Flags.toByte_eq_of_ofByte ?_
  have hshown : Flags.ofByte (Masked.compare8 a v)
      = { Flags.ofByte (Masked.sub8 a v false).2 with
        y := bit v 5, x := bit v 3 } := by
    simp [Flags.ofByte, Masked.compare8, bit_or, bit_and, bit_not, bit_literal]
  rw [hshown, hsub]
  rfl

/-- The low digit of a byte. -/
theorem toNat_lowDigit (v : UInt8) : (v &&& 0x0F).toNat = v.toNat % 16 :=
  (UInt8.toNat_and v 0x0F).trans (Nat.and_two_pow_sub_one_eq_mod v.toNat 4)

private theorem lowDigit_eq_zero (v : UInt8) :
    (v &&& 0x0F == 0) = decide (v.toNat % 16 = 0) := by
  rw [Bool.eq_iff_iff, beq_iff_eq, decide_eq_true_iff, ← toNat_lowDigit,
    ← UInt8.toNat_inj]
  rfl

/-- INC, in masks. -/
theorem increment8_masked (v : UInt8) (f : Flags) :
    Prod.map id Flags.toByte (increment8 v f)
      = Masked.increment8 v f.toByte := by
  have hbits := f.bits_toByte
  refine Prod.ext rfl (Flags.toByte_eq_of_ofByte ?_)
  simp [Flags.ofByte, Flags.ofResult, Masked.increment8, Masked.result,
    lowDigit_eq_zero, bit_or, bit_and, bit_onlyIf, bit_literal, hbits]

/-- DEC, in masks. -/
theorem decrement8_masked (v : UInt8) (f : Flags) :
    Prod.map id Flags.toByte (decrement8 v f)
      = Masked.decrement8 v f.toByte := by
  have hbits := f.bits_toByte
  refine Prod.ext rfl (Flags.toByte_eq_of_ofByte ?_)
  simp [Flags.ofByte, Flags.ofResult, Masked.decrement8, Masked.result,
    lowDigit_eq_zero, bit_or, bit_and, bit_onlyIf, bit_literal, hbits]

-- =============================================================== word sums

/-- The sum of two words and a carry, in masks. -/
theorem adc16_masked (left right : UInt16) (carry : Bool) :
    Prod.map id Flags.toByte (adc16 left right carry)
      = Masked.adc16 left right carry := by
  have hl := left.toNat_lt
  have hr := right.toNat_lt
  have hc := carry.toNat_le
  have hwide : (left.toUInt32 + right.toUInt32 + carry.toUInt32).toNat
      = left.toNat + right.toNat + carry.toNat := by
    have hbit : carry.toUInt32.toNat = carry.toNat := by cases carry <;> rfl
    rw [UInt32.toNat_add, UInt32.toNat_add, UInt16.toNat_toUInt32,
      UInt16.toNat_toUInt32, hbit]
    omega
  have hsum : UInt16.ofNat (left.toNat + right.toNat + carry.toNat)
      = (left.toUInt32 + right.toUInt32 + carry.toUInt32).toUInt16 := by
    rw [← UInt16.toNat_inj, UInt32.toNat_toUInt16, hwide]
    exact UInt16.toNat_ofNat'
  have hcarry : decide (0xFFFF < left.toUInt32 + right.toUInt32
      + carry.toUInt32)
      = decide (65535 < left.toNat + right.toNat + carry.toNat) := by
    rw [decide_eq_decide, UInt32.lt_iff_toNat_lt, hwide]
    rfl
  refine Prod.ext hsum (Flags.toByte_eq_of_ofByte ?_)
  show Flags.ofByte ((Masked.highByte _ &&& 0xA8) ||| onlyIf _ 0x40
    ||| (Masked.highByte (left ^^^ right ^^^ _) &&& 0x10)
    ||| Masked.overflowWord left (~~~right) _ ||| onlyIf _ 0x01) = _
  rw [ofByte_maskedWord, hcarry, half_sumWord (c := carry), ← hsum,
    wordBit_not right (by decide)]
  · cases wordBit left 15 <;> cases wordBit right 15 <;> rfl
  · rw [← hsum]
    exact UInt16.toNat_ofNat'

/-- A borrow out of a word is the bit above it in the difference. -/
theorem seventeenthBit (w : UInt32) :
    (w &&& 0x10000 != 0) = decide (w.toNat / 65536 % 2 = 1) := by
  have hbit : w.toNat.testBit 16 = decide (w.toNat / 65536 % 2 = 1) :=
    Nat.testBit_eq_decide_div_mod_eq
  rw [← hbit, Bool.eq_iff_iff, bne_iff_ne, ne_eq, ← UInt32.toNat_inj,
    UInt32.toNat_and]
  show ¬w.toNat &&& 2 ^ 16 = 0 ↔ _
  rw [Nat.and_two_pow]
  cases w.toNat.testBit 16 <;> simp

/-- The difference of two words and a borrow, in masks. -/
theorem sbc16_masked (left right : UInt16) (carry : Bool) :
    Prod.map id Flags.toByte (sbc16 left right carry)
      = Masked.sbc16 left right carry := by
  have hl := left.toNat_lt
  have hr := right.toNat_lt
  have hc := carry.toNat_le
  -- the double word wraps where the difference borrows, and bit 16 tells
  have hwide : (left.toUInt32 - right.toUInt32 - carry.toUInt32).toNat
      = (4294967296 + left.toNat - (right.toNat + carry.toNat))
        % 4294967296 := by
    have hbit : carry.toUInt32.toNat = carry.toNat := by cases carry <;> rfl
    rw [UInt32.toNat_sub, UInt32.toNat_sub, UInt16.toNat_toUInt32,
      UInt16.toNat_toUInt32, hbit]
    omega
  have hrest : left - right - UInt16.ofNat carry.toNat
      = (left.toUInt32 - right.toUInt32 - carry.toUInt32).toUInt16 := by
    rw [← UInt16.toNat_inj, UInt32.toNat_toUInt16, hwide, UInt16.toNat_sub,
      UInt16.toNat_sub, UInt16.toNat_ofNat']
    omega
  have hcarry : (left.toUInt32 - right.toUInt32 - carry.toUInt32
      &&& 0x10000 != 0)
      = decide (left.toNat < right.toNat + carry.toNat) := by
    rw [seventeenthBit, decide_eq_decide, hwide]
    omega
  refine Prod.ext hrest (Flags.toByte_eq_of_ofByte ?_)
  show Flags.ofByte (0x02 ||| (Masked.highByte _ &&& 0xA8) ||| onlyIf _ 0x40
    ||| (Masked.highByte (left ^^^ right ^^^ _) &&& 0x10)
    ||| Masked.overflowWord left right _ ||| onlyIf _ 0x01) = _
  rw [UInt8.or_assoc, UInt8.or_assoc, UInt8.or_assoc, UInt8.or_assoc,
    ofByte_subtract, ← UInt8.or_assoc, ← UInt8.or_assoc, ← UInt8.or_assoc,
    ofByte_maskedWord, hcarry, half_differenceWord (c := carry), ← hrest]
  · rw [UInt32.toNat_toUInt16, hwide]
    omega

/-- The sum of two words, in masks: three conditions are kept. -/
theorem add16_masked (left right : UInt16) (f : Flags) :
    Prod.map id Flags.toByte (add16 left right f)
      = Masked.add16 left right f.toByte := by
  have hl := left.toNat_lt
  have hr := right.toNat_lt
  have hbits := f.bits_toByte
  have hwide : (left.toUInt32 + right.toUInt32).toNat
      = left.toNat + right.toNat := by
    rw [UInt32.toNat_add, UInt16.toNat_toUInt32, UInt16.toNat_toUInt32]
    omega
  have hsum : left + right = (left.toUInt32 + right.toUInt32).toUInt16 := by
    rw [← UInt16.toNat_inj, UInt32.toNat_toUInt16, hwide]
    exact UInt16.toNat_add left right
  have hcarry : decide (0xFFFF < left.toUInt32 + right.toUInt32)
      = decide (65535 < left.toNat + right.toNat) := by
    rw [decide_eq_decide, UInt32.lt_iff_toNat_lt, hwide]
    rfl
  have hhalf : wordBit (left ^^^ right ^^^ (left + right)) 12
      = decide (4095 < left.toNat % 4096 + right.toNat % 4096) :=
    half_sumWord (c := false) (UInt16.toNat_add left right)
  refine Prod.ext hsum (Flags.toByte_eq_of_ofByte ?_)
  show Flags.ofByte ((f.toByte &&& 0xC4) ||| (Masked.highByte _ &&& 0x28)
    ||| (Masked.highByte (left ^^^ right ^^^ _) &&& 0x10) ||| onlyIf _ 0x01) = _
  rw [hcarry, ← hsum]
  simp [Flags.ofByte, Masked.highByte, bit_or, bit_and, bit_narrowed,
    bit_onlyIf, bit_literal, hbits, hhalf]

-- ============================================================= adjustments

/-- Parity, by counting the ones. -/
theorem evenParity_eq (v : UInt8) :
    evenParity v = ((List.range 8).countP (bit v) % 2 == 0) := by
  have all : ∀ n : Fin 256, evenParity (UInt8.ofFin n)
      = ((List.range 8).countP (bit (UInt8.ofFin n)) % 2 == 0) := by
        decide +kernel
  exact all v.toFin

/-- A test of a single bit. -/
theorem and_mask_ne_zero (n : Fin 8) (v : UInt8) :
    (v &&& mask n != 0) = bit v n := by
  have all : ∀ v : Fin 256, ∀ n : Fin 8,
      (UInt8.ofFin v &&& mask n != 0) = bit (UInt8.ofFin v) n := by
        decide +kernel
  exact all v.toFin n

/-- DAA, in masks. -/
theorem decimalAdjust_masked (a : UInt8) (f : Flags) :
    Prod.map id Flags.toByte (decimalAdjust a f)
      = Masked.decimalAdjust a f.toByte := by
  obtain ⟨_, _, _, hh, _, _, hn, hc⟩ := f.bits_toByte
  have hhalf : (f.toByte &&& 0x10 != 0) = f.h := (and_mask_ne_zero 4 _).trans hh
  have hsub : (f.toByte &&& 0x02 != 0) = f.n := (and_mask_ne_zero 1 _).trans hn
  have hcarry : (f.toByte &&& 0x01 != 0) = f.c :=
    (and_mask_ne_zero 0 _).trans hc
  have hdigit : decide (9 < a &&& 0x0F) = decide (9 < a.toNat % 16) := by
    rw [decide_eq_decide, UInt8.lt_iff_toNat_lt, toNat_lowDigit]
    rfl
  have hhigh : decide (0x99 < a) = decide (0x99 < a.toNat) :=
    decide_eq_decide.2 UInt8.lt_iff_toNat_lt
  have hcorrection : onlyIf (f.h || decide (9 < a.toNat % 16)) 0x06
      ||| onlyIf (f.c || decide (0x99 < a.toNat)) 0x60
        = decimalCorrection a f := by
    unfold decimalCorrection
    cases f.h || decide (9 < a.toNat % 16)
      <;> cases f.c || decide (0x99 < a.toNat) <;> rfl
  -- the accumulator first; the flags are read off it
  have hadjusted : (Masked.decimalAdjust a f.toByte).1
      = (decimalAdjust a f).1 := by
    unfold Masked.decimalAdjust decimalAdjust
    dsimp only
    rw [hhalf, hsub, hcarry, hdigit, hhigh, hcorrection]
  refine Prod.ext hadjusted.symm (Flags.toByte_eq_of_ofByte ?_)
  show Flags.ofByte (Masked.resultParity (Masked.decimalAdjust a f.toByte).1
    ||| ((a ^^^ (Masked.decimalAdjust a f.toByte).1) &&& 0x10)
    ||| (f.toByte &&& 0x02)
    ||| onlyIf (f.toByte &&& 0x01 != 0 || decide (0x99 < a)) 0x01) = _
  rw [hadjusted, hcarry, hhigh]
  simp [Flags.ofByte, Flags.ofResult, Flags.ofResultParity, Masked.result,
    Masked.resultParity, decimalAdjust, bit_or, bit_and, bit_xor, bit_onlyIf,
    bit_literal, evenParity_eq, hn]

/-- CPL, in masks. -/
theorem complement_masked (a : UInt8) (f : Flags) :
    Prod.map id Flags.toByte (complement a f)
      = Masked.complement a f.toByte := by
  have hbits := f.bits_toByte
  refine Prod.ext rfl (Flags.toByte_eq_of_ofByte ?_)
  simp [Flags.ofByte, Masked.complement, bit_or, bit_and, bit_literal, hbits]

/-- SCF, in masks. -/
theorem setCarry_masked (a : UInt8) (f : Flags) :
    (setCarry a f).toByte = Masked.setCarry a f.toByte := by
  have hbits := f.bits_toByte
  refine Flags.toByte_eq_of_ofByte ?_
  simp [Flags.ofByte, Masked.setCarry, setCarry, bit_or, bit_and,
    bit_literal, hbits]

/-- CCF, in masks. -/
theorem flipCarry_masked (a : UInt8) (f : Flags) :
    (flipCarry a f).toByte = Masked.flipCarry a f.toByte := by
  have hbits := f.bits_toByte
  have hcarry : (f.toByte &&& 0x01 != 0) = f.c :=
    (and_mask_ne_zero 0 _).trans hbits.2.2.2.2.2.2.2
  refine Flags.toByte_eq_of_ofByte ?_
  unfold Masked.flipCarry
  rw [hcarry]
  cases h : f.c <;> simp [Flags.ofByte, flipCarry, bit_or, bit_and,
    bit_literal, hbits, h]

end Alu
end ConsoleBoard.Z80
