/-
16-bit sums are two 8-bit ones.

A word sum leaves what an 8-bit operation on the low bytes leaves, followed by
one on the high bytes with the carry of the first (`Alu.bytewise`). The carry
that goes between is the quotient of the low sum by 256 (`toNat_decide_lt`), so
the two sums together are the sum of the words, and a half carry or a carry
out of the high byte is one out of bit 11 or bit 15. The other flags are bits
of the high byte (`wordBit_high`); only Z looks at both.

Beside this, the carry is said of the unsigned operands and P/V of the signed
ones (`adc16_overflow_iff`, `sbc16_overflow_iff`).
-/
import ConsoleBoard.Z80.Execute

namespace ConsoleBoard.Z80

variable {σ : Type}

namespace Alu

-- =============================================================== the bytes

/-- An operation on the low bytes, and then one on the high bytes with the carry
that the first has left: both results, and the flags of the second. -/
def bytewise (first second : Op) (left right : Pair) (carry : Bool) :
    Pair × Flags :=
  let low := apply first left.low right.low carry
  let high := apply second left.high right.high low.2.c
  (⟨high.1, low.1⟩, high.2)

/-- The bits of the high byte in a word. -/
theorem wordBit_high (p : Pair) (n : Nat) :
    wordBit p.toWord (n + 8) = bit p.high n := by
  have hlow : p.low.toNat < 2 ^ 8 := p.low.toNat_lt
  unfold wordBit bit
  rw [Pair.toNat_toWord, Nat.mul_comm, Nat.testBit_two_pow_mul_add _ hlow,
    if_neg (by omega), Nat.add_sub_cancel]

/-- The carry out of a byte sum is its quotient. -/
theorem toNat_decide_lt {n : Nat} (h : n < 512) :
    (decide (255 < n)).toNat = n / 256 := by
  by_cases hcarry : 255 < n
  · rw [decide_eq_true hcarry]
    show 1 = _
    omega
  · rw [decide_eq_false hcarry]
    show 0 = _
    omega

/-- The borrow out of a byte difference is what the two bytes are short of. -/
theorem toNat_decide_borrow {a b : Nat} (ha : a < 256) (hb : b ≤ 256) :
    (decide (a < b)).toNat = (255 + b - a) / 256 := by
  by_cases hborrow : a < b
  · rw [decide_eq_true hborrow]
    show 1 = _
    omega
  · rw [decide_eq_false hborrow]
    show 0 = _
    omega

/-- ADC on words is ADC on the low bytes and then on the high ones. -/
theorem adc16_eq_bytewise (left right : Pair) (carry : Bool) :
    adc16 left.toWord right.toWord carry =
      let two := bytewise .adc .adc left right carry
      (two.1.toWord, { two.2 with z := two.1.toWord == 0 }) := by
  have hll := left.low.toNat_lt
  have hlh := left.high.toNat_lt
  have hrl := right.low.toNat_lt
  have hrh := right.high.toNat_lt
  have hin : carry.toNat ≤ 1 := carry.toNat_le
  -- the carry between the bytes is the quotient of the low sum
  have hbetween : (apply .adc left.low right.low carry).2.c.toNat
      = (left.low.toNat + right.low.toNat + carry.toNat) / 256 :=
        toNat_decide_lt (by omega)
  have hlow : (bytewise .adc .adc left right carry).1.low.toNat
      = (left.low.toNat + right.low.toNat + carry.toNat) % 256 :=
        UInt8.toNat_ofNat'
  have hhigh : (bytewise .adc .adc left right carry).1.high.toNat
      = (left.high.toNat + right.high.toNat
        + (left.low.toNat + right.low.toNat + carry.toNat) / 256) % 256 := by
    rw [← hbetween]
    exact UInt8.toNat_ofNat'
  have hresult : UInt16.ofNat
      (left.toWord.toNat + right.toWord.toNat + carry.toNat)
      = (bytewise .adc .adc left right carry).1.toWord := by
    rw [← UInt16.toNat_inj, UInt16.toNat_ofNat', Pair.toNat_toWord,
      Pair.toNat_toWord, Pair.toNat_toWord, hlow, hhigh]
    omega
  have hcarry : decide (65535 < left.toWord.toNat + right.toWord.toNat
      + carry.toNat)
      = (bytewise .adc .adc left right carry).2.c := by
    show _ = decide (255 < left.high.toNat + right.high.toNat
      + (apply .adc left.low right.low carry).2.c.toNat)
    rw [hbetween, Pair.toNat_toWord, Pair.toNat_toWord, decide_eq_decide]
    omega
  have hhalf : decide
      (4095 < left.toWord.toNat % 4096 + right.toWord.toNat % 4096
      + carry.toNat) = (bytewise .adc .adc left right carry).2.h := by
    show _ = decide (15 < left.high.toNat % 16 + right.high.toNat % 16
      + (apply .adc left.low right.low carry).2.c.toNat)
    rw [hbetween, Pair.toNat_toWord, Pair.toNat_toWord, decide_eq_decide]
    omega
  unfold adc16
  dsimp only
  rw [hresult, hcarry, hhalf, wordBit_high, wordBit_high, wordBit_high,
    wordBit_high, wordBit_high]
  rfl

/-- ADD on words is ADC without a carry, but for the flags that it keeps. -/
theorem add16_eq_adc16 (left right : UInt16) (f : Flags) :
    add16 left right f =
      let sum := adc16 left right false
      (sum.1, { sum.2 with s := f.s, z := f.z, p := f.p }) := by
  have hresult : left + right = UInt16.ofNat (left.toNat + right.toNat) := by
    rw [UInt16.ofNat_add, UInt16.ofNat_toNat, UInt16.ofNat_toNat]
  unfold add16 adc16
  dsimp only
  rw [hresult]
  rfl

/-- ADD on words is ADD on the low bytes and then ADC on the high ones. -/
theorem add16_eq_bytewise (left right : Pair) (f : Flags) :
    add16 left.toWord right.toWord f =
      let two := bytewise .add .adc left right f.c
      (two.1.toWord, { two.2 with s := f.s, z := f.z, p := f.p }) := by
  rw [add16_eq_adc16, adc16_eq_bytewise]
  rfl

/-- A difference of two bytes and a borrow, in the natural numbers. -/
theorem toNat_sub8 (a v : UInt8) (carry : Bool) :
    (sub8 a v carry).1.toNat = (a.toNat + 512 - (v.toNat + carry.toNat))
      % 256 := by
  have ha := a.toNat_lt
  have hv := v.toNat_lt
  have hin : carry.toNat ≤ 1 := carry.toNat_le
  show (a - v - UInt8.ofNat carry.toNat).toNat = _
  rw [UInt8.toNat_sub, UInt8.toNat_sub, UInt8.toNat_ofNat']
  omega

/-- SBC on words is SBC on the low bytes and then on the high ones. -/
theorem sbc16_eq_bytewise (left right : Pair) (carry : Bool) :
    sbc16 left.toWord right.toWord carry =
      let two := bytewise .sbc .sbc left right carry
      (two.1.toWord, { two.2 with z := two.1.toWord == 0 }) := by
  have hll := left.low.toNat_lt
  have hlh := left.high.toNat_lt
  have hrl := right.low.toNat_lt
  have hrh := right.high.toNat_lt
  have hin : carry.toNat ≤ 1 := carry.toNat_le
  have hbetween : (apply .sbc left.low right.low carry).2.c.toNat
      = (255 + (right.low.toNat + carry.toNat) - left.low.toNat) / 256 :=
    toNat_decide_borrow hll (by omega)
  have hlow : (bytewise .sbc .sbc left right carry).1.low.toNat
      = (left.low.toNat + 512 - (right.low.toNat + carry.toNat)) % 256 :=
        toNat_sub8 ..
  have hhigh : (bytewise .sbc .sbc left right carry).1.high.toNat
      = (left.high.toNat + 512 - (right.high.toNat
        + (255 + (right.low.toNat + carry.toNat) - left.low.toNat) / 256))
          % 256 := by
    rw [← hbetween]
    exact toNat_sub8 ..
  have hresult : left.toWord - right.toWord - UInt16.ofNat carry.toNat
      = (bytewise .sbc .sbc left right carry).1.toWord := by
    rw [← UInt16.toNat_inj, UInt16.toNat_sub, UInt16.toNat_sub,
      UInt16.toNat_ofNat', Pair.toNat_toWord, Pair.toNat_toWord,
      Pair.toNat_toWord, hlow, hhigh]
    omega
  have hcarry : decide (left.toWord.toNat < right.toWord.toNat + carry.toNat)
      = (bytewise .sbc .sbc left right carry).2.c := by
    show _ = decide (left.high.toNat < right.high.toNat
      + (apply .sbc left.low right.low carry).2.c.toNat)
    rw [hbetween, Pair.toNat_toWord, Pair.toNat_toWord, decide_eq_decide]
    omega
  have hhalf : decide (left.toWord.toNat % 4096
      < right.toWord.toNat % 4096 + carry.toNat)
      = (bytewise .sbc .sbc left right carry).2.h := by
    show _ = decide (left.high.toNat % 16 < right.high.toNat % 16
      + (apply .sbc left.low right.low carry).2.c.toNat)
    rw [hbetween, Pair.toNat_toWord, Pair.toNat_toWord, decide_eq_decide]
    omega
  unfold sbc16
  dsimp only
  rw [hresult, hcarry, hhalf, wordBit_high, wordBit_high, wordBit_high,
    wordBit_high, wordBit_high]
  rfl

-- ================================================================ the sign

/-- The sign of a word: its top bit says that it is in the upper half. -/
theorem wordBit_sign (w : UInt16) :
    wordBit w 15 = decide (32768 ≤ w.toNat) := by
  have hw := w.toNat_lt
  unfold wordBit
  rw [Nat.testBit_eq_decide_div_mod_eq, decide_eq_decide]
  omega

/-- A word with its sign: the upper half is the negative one. -/
theorem toInt_toInt16 (w : UInt16) :
    w.toInt16.toInt
      = if 32768 ≤ w.toNat then (w.toNat : Int) - 65536 else w.toNat := by
  have hw := w.toNat_lt
  rw [← Int16.toInt_toBitVec, UInt16.toBitVec_toInt16,
    BitVec.toInt_eq_toNat_cond, UInt16.toNat_toBitVec]
  split <;> split <;> omega

/-- Whether a number is one of those that a word holds with its sign. -/
def FitsWord (n : Int) : Prop := -32768 ≤ n ∧ n ≤ 32767

/-- P/V of ADC on words: the signed sum does not fit a word. -/
theorem adc16_overflow_iff (left right : UInt16) (carry : Bool) :
    (adc16 left right carry).2.p = true ↔
      ¬FitsWord (left.toInt16.toInt + right.toInt16.toInt + carry.toNat) := by
  have hl := left.toNat_lt
  have hr := right.toNat_lt
  have hin : carry.toNat ≤ 1 := carry.toNat_le
  have hresult : (UInt16.ofNat (left.toNat + right.toNat + carry.toNat)).toNat
      = (left.toNat + right.toNat + carry.toNat) % 65536 := UInt16.toNat_ofNat'
  unfold adc16 FitsWord
  dsimp only
  rw [wordBit_sign, wordBit_sign, wordBit_sign, hresult, toInt_toInt16,
    toInt_toInt16, Bool.and_eq_true, beq_iff_eq, decide_eq_decide, bne_iff_ne,
    ne_eq, decide_eq_decide]
  split <;> split <;> omega

/-- P/V of SBC on words: the signed difference does not fit a word. -/
theorem sbc16_overflow_iff (left right : UInt16) (carry : Bool) :
    (sbc16 left right carry).2.p = true ↔
      ¬FitsWord (left.toInt16.toInt - right.toInt16.toInt - carry.toNat) := by
  have hl := left.toNat_lt
  have hr := right.toNat_lt
  have hin : carry.toNat ≤ 1 := carry.toNat_le
  have hresult : (left - right - UInt16.ofNat carry.toNat).toNat
      = (left.toNat + 131072 - (right.toNat + carry.toNat)) % 65536 := by
    rw [UInt16.toNat_sub, UInt16.toNat_sub, UInt16.toNat_ofNat']
    omega
  unfold sbc16 FitsWord
  dsimp only
  rw [wordBit_sign, wordBit_sign, wordBit_sign, hresult, toInt_toInt16,
    toInt_toInt16, Bool.and_eq_true, bne_iff_ne, ne_eq, decide_eq_decide,
    bne_iff_ne, ne_eq, decide_eq_decide]
  split <;> split <;> omega

end Alu

/-- The core after a word sum: the result in the pointer, F, and WZ one past
what the pointer was. -/
def Cpu.summed (cpu : Cpu) (x : Index) (result : Pair) (f : Flags) : Cpu :=
  { cpu with regs := { cpu.regs.setIndex x result with
      f, wz := (cpu.regs.index x).toWord + 1 } }

/-- ADD, ADC and SBC on words, at any bus and core: the result and F are what
the two byte operations leave, but that ADD keeps S, Z and P/V, and that Z of
the others looks at the whole word. Carry is the unsigned carry or borrow out of
the word, and P/V of the others the signed overflow. -/
theorem word_sums_bytewise (bus : Bus σ) (cpu : Cpu) (host : σ) (w : WordReg) :
    let right := cpu.regs.getWord w
    let f := cpu.regs.f
    (∀ x : Index,
      let left := (cpu.regs.index x).toWord
      let two := Alu.bytewise .add .adc (cpu.regs.index x) (.ofWord right) f.c
      (Instruction.addWord x w).execute bus cpu host
        = ((0, cpu.summed x two.1 { two.2 with
              s := f.s, z := f.z, p := f.p }), host)
      ∧ two.2.c = decide (65535 < left.toNat + right.toNat))
    ∧ (let left := cpu.regs.hl.toWord
      let two := Alu.bytewise .adc .adc cpu.regs.hl (.ofWord right) f.c
      (Instruction.adcWord w).execute bus cpu host
        = ((0, cpu.summed .hl two.1 { two.2 with
              z := two.1.toWord == 0 }), host)
      ∧ two.2.c = decide (65535 < left.toNat + right.toNat + f.c.toNat)
      ∧ (two.2.p = true
          ↔ ¬Alu.FitsWord (left.toInt16.toInt + right.toInt16.toInt
            + f.c.toNat)))
    ∧ (let left := cpu.regs.hl.toWord
      let two := Alu.bytewise .sbc .sbc cpu.regs.hl (.ofWord right) f.c
      (Instruction.sbcWord w).execute bus cpu host
        = ((0, cpu.summed .hl two.1 { two.2 with
              z := two.1.toWord == 0 }), host)
      ∧ two.2.c = decide (left.toNat < right.toNat + f.c.toNat)
      ∧ (two.2.p = true
          ↔ ¬Alu.FitsWord (left.toInt16.toInt - right.toInt16.toInt
            - f.c.toNat))) := by
  intro right f
  -- the operand as a pair, so that its bytes can be named
  have hright : (Pair.ofWord right).toWord = right := Pair.toWord_ofWord right
  refine ⟨fun x => ?add, ?adc, ?sbc⟩
  case add =>
    intro left two
    have hsum : Alu.add16 left right f
        = (two.1.toWord, { two.2 with s := f.s, z := f.z, p := f.p }) := by
      rw [← hright]
      exact Alu.add16_eq_bytewise ..
    refine ⟨?_, (congrArg (·.2.c) hsum).symm⟩
    show ((0, cpu.summed x (.ofWord (Alu.add16 left right f).1)
        (Alu.add16 left right f).2), host)
      = _
    rw [hsum, Pair.ofWord_toWord]
  case adc =>
    intro left two
    have hsum : Alu.adc16 left right f.c
        = (two.1.toWord, { two.2 with z := two.1.toWord == 0 }) := by
      rw [← hright]
      exact Alu.adc16_eq_bytewise ..
    have hp : (Alu.adc16 left right f.c).2.p = two.2.p := congrArg (·.2.p) hsum
    refine ⟨?_, (congrArg (·.2.c) hsum).symm,
      hp ▸ Alu.adc16_overflow_iff left right f.c⟩
    show ((0, cpu.summed .hl (.ofWord (Alu.adc16 left right f.c).1)
      (Alu.adc16 left right f.c).2), host) = _
    rw [hsum, Pair.ofWord_toWord]
  case sbc =>
    intro left two
    have hsum : Alu.sbc16 left right f.c
        = (two.1.toWord, { two.2 with z := two.1.toWord == 0 }) := by
      rw [← hright]
      exact Alu.sbc16_eq_bytewise ..
    have hp : (Alu.sbc16 left right f.c).2.p = two.2.p := congrArg (·.2.p) hsum
    refine ⟨?_, (congrArg (·.2.c) hsum).symm,
      hp ▸ Alu.sbc16_overflow_iff left right f.c⟩
    show ((0, cpu.summed .hl (.ofWord (Alu.sbc16 left right f.c).1)
      (Alu.sbc16 left right f.c).2), host) = _
    rw [hsum, Pair.ofWord_toWord]

end ConsoleBoard.Z80
