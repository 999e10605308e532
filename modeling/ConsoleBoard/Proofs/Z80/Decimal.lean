/-
Packed decimal numbers of any length.

ADC or SBC of two packed-decimal bytes leaves a binary sum, and DAA after it
makes the two digits of the decimal one: with `sign` +1 or -1,

  digits out + sign * 100 * carry out = digits x + sign * (digits y + carry in)

(`Decimally`, for each operation `decimally_adc` and `decimally_sbc`). The same
law then holds of a number of n bytes with 100 ^ n for 100, by induction from
the lowest byte with the carry generalized (`decimalChain_value`): each byte
absorbs the carry of the one before. As the digits are below 100 ^ n, the law
gives both the result modulo 100 ^ n and what the last carry says.
-/
import Mathlib.Data.Nat.Digits.Defs
import Mathlib.Tactic.LinearCombination
import ConsoleBoard.Proofs.Z80.Record
import ConsoleBoard.Proofs.Z80.WordSums

namespace ConsoleBoard.Z80

variable {σ : Type}

-- ================================================================ one byte

/-- A packed-decimal byte: both nibbles are digits. -/
def Decimal (b : UInt8) : Prop := b.toNat / 16 ≤ 9 ∧ b.toNat % 16 ≤ 9

instance : DecidablePred Decimal := fun b =>
  inferInstanceAs (Decidable (b.toNat / 16 ≤ 9 ∧ b.toNat % 16 ≤ 9))

/-- The number of the two digits in a byte. -/
def twoDigits (b : UInt8) : Nat := b.toNat / 16 * 10 + b.toNat % 16

/-- Two decimal digits are below a hundred. -/
theorem Decimal.twoDigits_lt {b : UInt8} (h : Decimal b) :
    twoDigits b < 100 := by
  unfold Decimal at h
  unfold twoDigits
  omega

namespace Alu

/-- An operation and then DAA: the byte and the carry. -/
def adjusted (op : Op) (x y : UInt8) (carry : Bool) : UInt8 × Bool :=
  let sum := apply op x y carry
  let result := decimalAdjust sum.1 sum.2
  (result.1, result.2.c)

/-- DAA where it is known which of the two digits it corrects: what it makes of
the byte, and the carry. -/
theorem decimalAdjust_of {a : UInt8} {f : Flags} {low high : Prop}
    [Decidable low] [Decidable high]
    (hlow : f.h = true ∨ 9 < a.toNat % 16 ↔ low)
    (hhigh : f.c = true ∨ 0x99 < a.toNat ↔ high) :
    let correction := (if low then 6 else 0) + (if high then 0x60 else 0)
    (decimalAdjust a f).1.toNat
        = (if f.n then 256 - correction + a.toNat
            else a.toNat + correction) % 256
      ∧ (decimalAdjust a f).2.c = decide high := by
  intro correction
  have hcorrection : (decimalCorrection a f).toNat = correction := by
    unfold decimalCorrection
    simp only [Bool.or_eq_true, decide_eq_true_eq, hlow, hhigh]
    unfold correction
    split <;> split <;> rfl
  refine ⟨?_, ?_⟩
  · show (if f.n then a - decimalCorrection a f
      else a + decimalCorrection a f).toNat = _
    rw [← hcorrection]
    split
    · exact UInt8.toNat_sub ..
    · exact UInt8.toNat_add ..
  · show (f.c || decide (0x99 < a.toNat)) = _
    rw [← decide_eq_decide.2 hhigh, Bool.decide_or, Bool.decide_eq_true]

/-- An operation followed by DAA is decimal arithmetic of one byte, where the
second operand and both carries are counted with the sign. -/
def Decimally (op : Op) (sign : Int) : Prop :=
  ∀ (x y : UInt8) (carry : Bool), Decimal x → Decimal y →
    let result := adjusted op x y carry
    Decimal result.1
      ∧ twoDigits result.1 + sign * (100 * result.2.toNat)
        = twoDigits x + sign * (twoDigits y + carry.toNat)

/-- A binary sum of two decimal bytes is corrected where the low digits and
where the whole sum have gone past nine and past ninety-nine. -/
theorem decimally_adc : Decimally .adc 1 := by
  intro x y carry hx hy result
  have hin : carry.toNat ≤ 1 := carry.toNat_le
  obtain ⟨hxh, hxl⟩ := hx
  obtain ⟨hyh, hyl⟩ := hy
  let sum := x.toNat + y.toNat + carry.toNat
  have hsum : (apply .adc x y carry).1.toNat = sum % 256 := UInt8.toNat_ofNat'
  -- the two conditions of DAA, on the digits that went in
  have hlow : (apply .adc x y carry).2.h = true
      ∨ 9 < (apply .adc x y carry).1.toNat % 16
      ↔ 9 < x.toNat % 16 + y.toNat % 16 + carry.toNat := by
    rw [hsum]
    show decide _ = true ∨ _ ↔ _
    rw [decide_eq_true_eq]
    omega
  have hhigh : (apply .adc x y carry).2.c = true
      ∨ 0x99 < (apply .adc x y carry).1.toNat
      ↔ 0x99 < sum := by
    rw [hsum]
    show decide _ = true ∨ _ ↔ _
    rw [decide_eq_true_eq]
    omega
  obtain ⟨hdigits, hcarry⟩ : result.1.toNat = (_ + _) % 256 ∧ result.2 = _ :=
    decimalAdjust_of hlow hhigh
  unfold Decimal twoDigits
  rw [hdigits, hcarry, hsum]
  by_cases hover : 0x99 < sum
  · rw [if_pos hover, decide_eq_true hover, Bool.toNat_true]
    split <;> omega
  · rw [if_neg hover, decide_eq_false hover, Bool.toNat_false]
    split <;> omega

/-- A binary difference of two decimal bytes is corrected where the low digits
and where the whole difference have borrowed. -/
theorem decimally_sbc : Decimally .sbc (-1) := by
  intro x y carry hx hy result
  have hin : carry.toNat ≤ 1 := carry.toNat_le
  obtain ⟨hxh, hxl⟩ := hx
  obtain ⟨hyh, hyl⟩ := hy
  -- 512 keeps the difference a natural number, borrow included
  let rest := x.toNat + 512 - (y.toNat + carry.toNat)
  have hrest : (apply .sbc x y carry).1.toNat = rest % 256 := toNat_sub8 ..
  have hlow : (apply .sbc x y carry).2.h = true
      ∨ 9 < (apply .sbc x y carry).1.toNat % 16
      ↔ x.toNat % 16 < y.toNat % 16 + carry.toNat := by
    rw [hrest]
    show decide _ = true ∨ _ ↔ _
    rw [decide_eq_true_eq]
    omega
  have hhigh : (apply .sbc x y carry).2.c = true
      ∨ 0x99 < (apply .sbc x y carry).1.toNat
      ↔ x.toNat < y.toNat + carry.toNat := by
    rw [hrest]
    show decide _ = true ∨ _ ↔ _
    rw [decide_eq_true_eq]
    omega
  obtain ⟨hdigits, hcarry⟩ : result.1.toNat = (_ - _ + _) % 256
    ∧ result.2 = _ :=
    decimalAdjust_of hlow hhigh
  unfold Decimal twoDigits
  rw [hdigits, hcarry, hrest]
  by_cases hborrow : x.toNat < y.toNat + carry.toNat
  · have hround : rest % 256 = x.toNat + 256
        - (y.toNat + carry.toNat) := by omega
    rw [if_pos hborrow, decide_eq_true hborrow, Bool.toNat_true, hround]
    split <;> omega
  · have hround : rest % 256 = x.toNat - (y.toNat + carry.toNat) := by omega
    rw [if_neg hborrow, decide_eq_false hborrow, Bool.toNat_false, hround]
    split <;> omega

end Alu

-- ======================================================== the instructions

/-- Where two bytes are added or subtracted: the core with the first byte in A,
the host, and the operand, with `none` for the byte after the opcode. -/
structure Place (σ : Type) where
  cpu : Cpu
  host : σ
  operand : Option Operand

namespace Place

/-- The first byte. -/
def first (place : Place σ) : UInt8 := place.cpu.regs.a

/-- Read the second byte. -/
def read : Option Operand → Micro σ UInt8
  | some operand => operand.read
  | none => Micro.fetch8

/-- The second byte. -/
def second (bus : Bus σ) (place : Place σ) : UInt8 :=
  (read place.operand bus place.cpu place.host).1.1

/-- The instruction of an operation on A and the second byte. -/
def instruction (op : Alu.Op) : Option Operand → Instruction
  | some operand => .alu op operand
  | none => .aluImmediate op

/-- The core with the carry flag that is handed on, and the rest of F as it
is. -/
def started (place : Place σ) (carry : Bool) : Cpu :=
  { place.cpu with regs := { place.cpu.regs with
      f := { place.cpu.regs.f with c := carry } } }

/-- The core after the operation and DAA. -/
def finished (bus : Bus σ) (op : Alu.Op) (place : Place σ)
    (carry : Bool) : Cpu :=
  ((instruction op place.operand).execute >>= fun _ =>
    Instruction.daa.execute : Micro σ Nat)
    bus (place.started carry) place.host |>.1.2

/-- The two instructions are the operation and its correction: A and the
carry. -/
theorem finished_eq (bus : Bus σ) (op : Alu.Op) (place : Place σ)
    (carry : Bool) :
    ((place.finished bus op carry).regs.a,
      (place.finished bus op carry).regs.f.c)
      = Alu.adjusted op place.first (place.second bus) carry := by
  obtain ⟨cpu, host, operand⟩ := place
  rcases operand with _ | r | x
  · rfl
  · cases r <;> rfl
  · cases x <;> rfl

end Place

-- =========================================================== whole numbers

/-- Byte by byte from the lowest, with only the carry flag handed on: what A
holds after each, and the last carry. -/
def decimalChain (bus : Bus σ) (op : Alu.Op) :
    Bool → List (Place σ) → List UInt8 × Bool
  | carry, [] => ([], carry)
  | carry, place :: rest =>
      let now := place.finished bus op carry
      let after := decimalChain bus op now.regs.f.c rest
      (now.regs.a :: after.1, after.2)

/-- The number of packed-decimal bytes, the lowest first. -/
def decimalValue (bytes : List UInt8) : Nat :=
  Nat.ofDigits 100 (bytes.map twoDigits)

/-- The first place is the last two digits. -/
private theorem decimalValue_cons (b : UInt8) (rest : List UInt8) :
    decimalValue (b :: rest) = twoDigits b + 100 * decimalValue rest :=
      Nat.ofDigits_cons ..

/-- n bytes hold numbers below 100 ^ n. -/
theorem decimalValue_lt {bytes : List UInt8} (h : ∀ b ∈ bytes, Decimal b) :
    decimalValue bytes < 100 ^ bytes.length := by
  have hdigits : ∀ d ∈ bytes.map twoDigits, d < 100 := by
    intro d hd
    obtain ⟨b, hb, rfl⟩ := List.mem_map.1 hd
    exact (h b hb).twoDigits_lt
  have hlt := Nat.ofDigits_lt_base_pow_length (by decide) hdigits
  rwa [List.length_map] at hlt

section Chain

variable {bus : Bus σ} {places : List (Place σ)}

/-- A chain has a result in each place. -/
private theorem length_decimalChain (op : Alu.Op) (carry : Bool) :
    (decimalChain bus op carry places).1.length = places.length := by
  induction places generalizing carry with
  | nil => rfl
  | cons place rest ih => exact congrArg Nat.succ (ih _)

/-- A byte of decimal arithmetic makes numbers of any length of it: all bytes
are decimal, and the law of one byte holds of the whole. -/
theorem decimalChain_value {op : Alu.Op} {sign : Int}
    (hop : Alu.Decimally op sign)
    (hfirst : ∀ place ∈ places, Decimal place.first)
    (hsecond : ∀ place ∈ places, Decimal (place.second bus)) (carry : Bool) :
    (∀ b ∈ (decimalChain bus op carry places).1, Decimal b)
      ∧ decimalValue (decimalChain bus op carry places).1
          + sign * (100 ^ places.length
            * (decimalChain bus op carry places).2.toNat)
        = decimalValue (places.map (·.first))
          + sign * (decimalValue (places.map (·.second bus))
            + carry.toNat) := by
  -- from the last digits up: a byte hands its carry on, so any carry in
  induction places generalizing carry with
  | nil =>
      refine ⟨nofun, ?_⟩
      show (0 : Int) + sign * (1 * carry.toNat) = 0 + sign * (0 + carry.toNat)
      ring
  | cons place rest ih =>
      let now := place.finished bus op carry
      have hnow : (now.regs.a, now.regs.f.c)
          = Alu.adjusted op place.first (place.second bus) carry :=
            place.finished_eq bus op carry
      obtain ⟨hdecimal, hbyte⟩ := hop place.first (place.second bus) carry
        (hfirst place (.head _)) (hsecond place (.head _))
      rw [← hnow] at hdecimal hbyte
      obtain ⟨hrest, hvalue⟩ := ih (fun p hp => hfirst p (.tail _ hp))
        (fun p hp => hsecond p (.tail _ hp)) now.regs.f.c
      refine ⟨List.forall_mem_cons.2 ⟨hdecimal, hrest⟩, ?_⟩
      show (decimalValue
        (now.regs.a :: (decimalChain bus op now.regs.f.c rest).1) : Int)
          + sign * (100 ^ (rest.length + 1)
            * (decimalChain bus op now.regs.f.c rest).2.toNat)
        = decimalValue (place.first :: rest.map (·.first))
          + sign * (decimalValue (place.second bus :: rest.map (·.second bus))
            + carry.toNat)
      rw [decimalValue_cons, decimalValue_cons, decimalValue_cons, pow_succ]
      push_cast
      linear_combination hbyte + 100 * hvalue

end Chain

/-- Packed decimal numbers of any length, at any bus, cores, hosts and operands:
ADC and DAA on each byte give the digits of the sum modulo 100 ^ n, and the last
carry says that the sum did not fit; SBC and DAA give those of the difference,
and the last carry says that it was negative. Every byte on the way is
decimal. -/
theorem decimal_arithmetic (bus : Bus σ) (carry : Bool)
    (places : List (Place σ)) (hfirst : ∀ place ∈ places, Decimal place.first)
    (hsecond : ∀ place ∈ places, Decimal (place.second bus)) :
    let x := decimalValue (places.map (·.first))
    let y := decimalValue (places.map (·.second bus))
    let sum := decimalChain bus .adc carry places
    let difference := decimalChain bus .sbc carry places
    (sum.1.length = places.length
      ∧ (∀ b ∈ sum.1, Decimal b)
      ∧ decimalValue sum.1 = (x + y + carry.toNat) % 100 ^ places.length
      ∧ (sum.2 = true ↔ 100 ^ places.length ≤ x + y + carry.toNat))
    ∧ (difference.1.length = places.length
      ∧ (∀ b ∈ difference.1, Decimal b)
      ∧ (decimalValue difference.1 : Int)
        = (x - y - carry.toNat) % 100 ^ places.length
      ∧ (difference.2 = true ↔ x < y + carry.toNat)) := by
  intro x y sum difference
  obtain ⟨hsum, hsumValue⟩ :=
    decimalChain_value Alu.decimally_adc hfirst hsecond carry
  obtain ⟨hdifference, hdifferenceValue⟩ :=
    decimalChain_value Alu.decimally_sbc hfirst hsecond carry
  have hsumLength : sum.1.length = places.length :=
    length_decimalChain .adc carry
  have hdifferenceLength : difference.1.length = places.length :=
    length_decimalChain .sbc carry
  -- the digits are bounded, so the value is the remainder and the carry is the
  -- quotient
  have hsumLt : decimalValue sum.1 < 100 ^ places.length :=
    hsumLength ▸ decimalValue_lt hsum
  have hdifferenceLt : decimalValue difference.1 < 100 ^ places.length :=
    hdifferenceLength ▸ decimalValue_lt hdifference
  have hadd : decimalValue sum.1 + 100 ^ places.length * sum.2.toNat
      = x + y + carry.toNat := by
    zify
    linear_combination hsumValue
  have hsub : (decimalValue difference.1 : Int)
      = x - y - carry.toNat + 100 ^ places.length * difference.2.toNat := by
    linear_combination hdifferenceValue
  refine ⟨⟨hsumLength, hsum, ?_, ?_⟩, hdifferenceLength, hdifference, ?_, ?_⟩
  · rw [← hadd, Nat.add_mul_mod_self_left, Nat.mod_eq_of_lt hsumLt]
  · generalize sum.2 = last at hadd ⊢
    cases last with
    | false =>
        rw [Bool.toNat_false, Nat.mul_zero] at hadd
        exact ⟨nofun, by omega⟩
    | true =>
        rw [Bool.toNat_true, Nat.mul_one] at hadd
        exact ⟨fun _ => by omega, fun _ => rfl⟩
  · rw [← Int.add_mul_emod_self_left
      (x - y - carry.toNat) _ difference.2.toNat, ← hsub, Int.emod_eq_of_lt
        (Int.natCast_nonneg _) (by exact_mod_cast hdifferenceLt)]
  · zify at hdifferenceLt
    generalize difference.2 = last at hsub ⊢
    cases last with
    | false =>
        rw [Bool.toNat_false, Nat.cast_zero, mul_zero] at hsub
        exact ⟨nofun, by omega⟩
    | true =>
        rw [Bool.toNat_true, Nat.cast_one, mul_one] at hsub
        exact ⟨fun _ => by omega, fun _ => rfl⟩

/-- A place with one byte in A and the other in B. -/
def Place.ofBytes (x y : UInt8) : Place Unit where
  cpu := { Cpu.powerOn with
    regs := { Registers.powerOn with a := x, bc := ⟨y, 0⟩ } }
  host := ()
  operand := some (.reg .b)

/-- 1999 + 8001 is 0000 with a carry, and 1999 - 8001 is 3998 with a borrow. -/
theorem decimal_arithmetic_wraps :
    let places := [Place.ofBytes 0x99 0x01, Place.ofBytes 0x19 0x80]
    let sum := decimalChain openBus.bus .adc false places
    let difference := decimalChain openBus.bus .sbc false places
    (∀ place ∈ places, Decimal place.first)
      ∧ (∀ place ∈ places, Decimal (place.second openBus.bus))
      ∧ (decimalValue sum.1 = 0 ∧ sum.2 = true)
      ∧ (decimalValue difference.1 : Int) = 3998 ∧ difference.2 = true := by
  intro places sum difference
  have hfirst : ∀ place ∈ places, Decimal place.first := by decide
  have hsecond : ∀ place ∈ places,
      Decimal (place.second openBus.bus) := by decide
  obtain ⟨⟨-, -, hsum, hcarry⟩, -, -, hdifference, hborrow⟩ :=
    decimal_arithmetic openBus.bus false places hfirst hsecond
  exact ⟨hfirst, hsecond, ⟨hsum.trans (by decide), hcarry.2 (by decide)⟩,
    hdifference.trans (by decide), hborrow.2 (by decide)⟩

end ConsoleBoard.Z80
