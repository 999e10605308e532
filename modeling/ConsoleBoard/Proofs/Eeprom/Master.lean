/-
A processor that works the two lines bit by bit, and what one clock of it
does to a part.

# The master

The master writes bytes to the one address that both of its lines share,
and reads the data line back through the port of the part. `clock` is the
only step it knows besides the two conditions: the data line is set while
the clock is low, and looked at while it is high.

# One clock

A clock is a rise and a fall with nothing between, so it is two rules of the
protocol (`clock_eq`), whatever the part makes of them.
-/
import ConsoleBoard.Proofs.Eeprom.Write
import Mathlib.Data.Nat.Bitwise

namespace ConsoleBoard.Eeprom

-- ============================================================== the wiring

/-- The two lines of the processor are different bits of one byte, and the
line of the part is a bit of a byte. -/
structure Mapper.OneByte (m : Mapper) : Prop where
  address : m.sdaIn.address = m.scl.address
  scl : m.scl.bit < 8
  sdaIn : m.sdaIn.bit < 8
  apart : m.scl.bit ≠ m.sdaIn.bit
  sdaOut : m.sdaOut.bit < 8

/-- The byte that puts two levels on the lines. -/
def Mapper.levels (m : Mapper) (scl sdaIn : Bool) : UInt8 :=
  UInt8.ofNat (scl.toNat <<< m.scl.bit)
    ||| UInt8.ofNat (sdaIn.toNat <<< m.sdaIn.bit)

def Mapper.put (m : Mapper) (scl sdaIn : Bool) : LineWrite :=
  .byte m.scl.address (m.levels scl sdaIn)

/-- The writes of a clock for each bit. -/
def Mapper.clocks (m : Mapper) (bits : List Bool) : List LineWrite :=
  bits.flatMap fun bit => [m.put false bit, m.put true bit, m.put false bit]

/-- The bits of a byte in the order in which they are sent. -/
def bits (v : UInt8) : List Bool := [7, 6, 5, 4, 3, 2, 1, 0].map v.toNat.testBit

/-- The writes of bytes, each with a clock for its answer. -/
def Mapper.bytes (m : Mapper) (list : List UInt8) : List LineWrite :=
  list.flatMap fun v => m.clocks (bits v ++ [true])

-- ============================================================== the master

namespace Master

variable (m : Mapper)

def drive (scl sdaIn : Bool) : StateM Eeprom Unit :=
  modify fun e => e.write (m.put scl sdaIn)

/-- The data line as the port shows it. -/
def sample (e : Eeprom) : Bool :=
  (e.readByte m.sdaOut.address).toNat.testBit m.sdaOut.bit

/-- One clock with a level on the data line, and the level seen on it. -/
def clock (bit : Bool) : StateM Eeprom Bool := do
  drive m false bit
  drive m true bit
  let seen := sample m (← get)
  drive m false bit
  return seen

def start : StateM Eeprom Unit := do
  drive m true false
  drive m false false

def stop : StateM Eeprom Unit := do
  drive m false false
  drive m true false
  drive m true true

/-- Clock out the lower `n` bits of a byte, the highest first. -/
def sendBits (v : UInt8) : Nat → StateM Eeprom Unit
  | 0 => return
  | n + 1 => do
    discard (clock m (v.toNat.testBit n))
    sendBits v n

/-- Send a byte, let the line go, and tell whether it was acknowledged. -/
def send (v : UInt8) : StateM Eeprom Bool := do
  sendBits m v 8
  return !(← clock m true)

/-- Clock `n` bits in behind those that there are. -/
def receiveBits (v : UInt8) : Nat → StateM Eeprom UInt8
  | 0 => return v
  | n + 1 => do
    let bit ← clock m true
    receiveBits (v * 2 + if bit then 1 else 0) n

/-- Receive a byte, and acknowledge it or not. -/
def receive (acknowledge : Bool) : StateM Eeprom UInt8 := do
  let v ← receiveBits m 0 8
  discard (clock m !acknowledge)
  return v

def sendAll : List UInt8 → StateM Eeprom (List Bool)
  | [] => return []
  | v :: rest => do
    let answer ← send m v
    let answers ← sendAll rest
    return answer :: answers

/-- Receive bytes, and acknowledge all but the last. -/
def receiveAll : Nat → StateM Eeprom (List UInt8)
  | 0 => return []
  | n + 1 => do
    let v ← receive m (0 < n)
    let rest ← receiveAll n
    return v :: rest

/-- Write bytes from an address on, and tell which bytes were acknowledged,
the address byte first. -/
def write (a : UInt8) (bytes : List UInt8) : StateM Eeprom (List Bool) := do
  start m
  let answers ← sendAll m (a * 2 :: bytes)
  stop m
  return answers

/-- Read `n` bytes from an address on, and tell whether the address byte was
acknowledged. -/
def read (a : UInt8) (n : Nat) : StateM Eeprom (Bool × List UInt8) := do
  start m
  let answer ← send m (a * 2 + 1)
  let bytes ← receiveAll m n
  stop m
  return (answer, bytes)

-- What each program does to a part, one level down. They are not left to
-- unfolding: eight bits of a byte are a large term.

/-- A program in two parts, one after the other. -/
private theorem bind_apply {α β : Type} (p : StateM Eeprom α)
    (next : α → StateM Eeprom β) (e : Eeprom) :
    (p >>= next) e = next (p e).1 (p e).2 := rfl

section

variable {m : Mapper}

/-- A sent byte is eight bits and the answer to them. -/
theorem send_eq (v : UInt8) (e : Eeprom) :
    send m v e =
      (!(clock m true (sendBits m v 8 e).2).1,
        (clock m true (sendBits m v 8 e).2).2) := by
  unfold send
  rw [bind_apply, bind_apply]
  rfl

/-- A received byte is eight bits and the acknowledge behind them. -/
theorem receive_eq (acknowledge : Bool) (e : Eeprom) :
    receive m acknowledge e =
      let got := receiveBits m 0 8 e
      (got.1, (clock m (!acknowledge) got.2).2) := by
  unfold receive
  rw [bind_apply]
  rfl

theorem sendAll_cons (v : UInt8) (rest : List UInt8) (e : Eeprom) :
    sendAll m (v :: rest) e =
      let sent := send m v e
      (sent.1 :: (sendAll m rest sent.2).1, (sendAll m rest sent.2).2) := by
  conv_lhs => unfold sendAll
  rw [bind_apply, bind_apply]
  rfl

theorem receiveAll_succ (n : Nat) (e : Eeprom) :
    receiveAll m (n + 1) e =
      let got := receive m (0 < n) e
      (got.1 :: (receiveAll m n got.2).1, (receiveAll m n got.2).2) := by
  conv_lhs => unfold receiveAll
  rw [bind_apply, bind_apply]
  rfl

theorem write_eq (a : UInt8) (bytes : List UInt8) (e : Eeprom) :
    write m a bytes e =
      let sent := sendAll m (a * 2 :: bytes) (start m e).2
      (sent.1, (stop m sent.2).2) := by
  unfold write
  rw [bind_apply, bind_apply, bind_apply]
  rfl

theorem read_eq (a : UInt8) (n : Nat) (e : Eeprom) :
    read m a n e =
      let sent := send m (a * 2 + 1) (start m e).2
      let got := receiveAll m n sent.2
      ((sent.1, got.1), (stop m got.2).2) := by
  unfold read
  rw [bind_apply, bind_apply, bind_apply, bind_apply]
  rfl

end

end Master

section

variable {m : Mapper} {e : Eeprom}

-- ================================================ the lines and the levels

/-- One bit in a byte. -/
private theorem toNat_bit (b : Bool) {n : Nat} (hn : n < 8) :
    (UInt8.ofNat (b.toNat <<< n)).toNat = b.toNat <<< n := by
  have hb : b.toNat ≤ 1 := Bool.toNat_le b
  have hpow : 2 ^ n ≤ 2 ^ 7 := Nat.pow_le_pow_right (by decide) (by omega)
  rw [UInt8.toNat_ofNat', Nat.shiftLeft_eq]
  refine Nat.mod_eq_of_lt ?_
  calc b.toNat * 2 ^ n ≤ 1 * 2 ^ 7 := Nat.mul_le_mul hb hpow
    _ < 2 ^ 8 := by decide

/-- Only the shifted place can hold the bit. -/
private theorem testBit_bit (b : Bool) (n i : Nat) :
    (b.toNat <<< n).testBit i = (decide (n = i) && b) := by
  cases b with
  | false => simp
  | true => simp [Nat.one_shiftLeft, Nat.testBit_two_pow]

/-- The byte on the bus shows the clock. -/
private theorem scl_levels (hw : m.OneByte) (scl sdaIn : Bool) :
    (m.levels scl sdaIn).toNat.testBit m.scl.bit = scl := by
  unfold Mapper.levels
  rw [UInt8.toNat_or, toNat_bit _ hw.scl, toNat_bit _ hw.sdaIn, Nat.testBit_or,
    testBit_bit, testBit_bit]
  simp [hw.apart.symm]

/-- The byte on the bus shows the data line. -/
private theorem sdaIn_levels (hw : m.OneByte) (scl sdaIn : Bool) :
    (m.levels scl sdaIn).toNat.testBit m.sdaIn.bit = sdaIn := by
  unfold Mapper.levels
  rw [UInt8.toNat_or, toNat_bit _ hw.scl, toNat_bit _ hw.sdaIn, Nat.testBit_or,
    testBit_bit, testBit_bit]
  simp [hw.apart]

/-- A write of both levels reaches both lines. -/
theorem lines_put (hw : m.OneByte) (scl sdaIn : Bool) :
    (m.put scl sdaIn).lines m = (some scl, some sdaIn) := by
  simp only [Mapper.put, LineWrite.lines, Line.inByte?, hw.address, if_true,
    scl_levels hw, sdaIn_levels hw]

/-- The port shows the data line. -/
theorem sample_eq (hw : m.OneByte) (hm : e.mapper = some m) :
    Master.sample m e = e.regs.sda := by
  unfold Master.sample readByte
  simp only [hm, if_true]
  cases e.regs.sda with
  | false => simp
  | true =>
      show (UInt8.ofNat (true.toNat <<< m.sdaOut.bit)).toNat.testBit
        m.sdaOut.bit = true
      rw [toNat_bit _ hw.sdaOut, testBit_bit]
      simp

-- =============================================================== one clock

/-- The registers at the rise of a clock with a level on the data line. -/
def Registers.atRise (r : Registers) (bit : Bool) : Registers :=
  { r with
    scl := true, sdaIn := bit, sclBefore := false, sdaInBefore := bit,
    sdaOutBefore := r.sdaOut }

-- a wired part that is selected and has an address to speak of
variable (hw : m.OneByte) (hset : m.chip.sizeMask ≠ 0) (hm : e.mapper = some m)

include hw hset hm

/-- A byte on the bus drives both lines. -/
theorem write_put (scl sdaIn : Bool) :
    e.write (m.put scl sdaIn) =
      (react m.chip { e with regs := e.regs.driven scl sdaIn }
        (e.regs.driven scl sdaIn).event).settle := by
  rw [write_eq_writeLines hm, lines_put hw, writeLines_eq hm]
  exact if_neg hset

/-- While the clock is low, the data line is free. -/
theorem write_low (hclock : e.regs.sclBefore = false) (bit : Bool) :
    e.write (m.put false bit) = settle { e with
      regs := e.regs.driven false bit } := by
  have hevent : (e.regs.driven false bit).event = .quiet := by
    simp [Registers.event, Registers.driven, hclock]
  rw [write_put hw hset hm, hevent]
  rfl

/-- A rise of the clock is its reaction, with the data line settled. -/
theorem write_rise (hclock : e.regs.sclBefore = false) (bit : Bool)
    {access : Option Access} {high : Eeprom}
    (hrise : Reaction m.chip { e with
      regs := e.regs.driven true bit } .rise access high) :
    e.write (m.put true bit) = high.settle := by
  have hevent : (e.regs.driven true bit).event = .rise := by
    simp [Registers.event, Registers.driven, hclock]
  rw [write_put hw hset hm, hevent, hrise.eq_react]

/-- A fall of the clock is its reaction, with the data line settled. -/
theorem write_fall (hclock : e.regs.sclBefore = true) (bit : Bool)
    {access : Option Access} {low : Eeprom}
    (hfall : Reaction m.chip { e with
      regs := e.regs.driven false bit } .fall access low) :
    e.write (m.put false bit) = low.settle := by
  have hevent : (e.regs.driven false bit).event = .fall := by
    simp [Registers.event, Registers.driven, hclock]
  rw [write_put hw hset hm, hevent, hfall.eq_react]

/-- A clock is a rise and a fall. -/
theorem clock_eq (hclock : e.regs.sclBefore = false) {bit : Bool}
    {a b : Option Access} {high low : Eeprom}
    (hrise : Reaction m.chip { e with regs := e.regs.atRise bit } .rise a high)
    (hfall : Reaction m.chip { high with
      regs := high.settle.regs.driven false bit } .fall b low) :
    Master.clock m bit e = (bit && high.regs.sdaOut, low.settle) := by
  have hhigh : (settle { e with regs := e.regs.driven false bit }).write
      (m.put true bit)
      = high.settle :=
    write_rise (e := settle { e with regs := e.regs.driven false bit }) hw hset
      hm rfl bit hrise
  have hm' : high.settle.mapper = some m := hrise.mapper_eq.trans hm
  have hlow : high.settle.write (m.put false bit) = low.settle :=
    write_fall hw hset hm' hrise.lines_eq.1 bit hfall
  have hseen : Master.sample m high.settle = (bit && high.regs.sdaOut) := by
    rw [sample_eq hw hm']
    exact congrArg (· && high.regs.sdaOut) hrise.lines_eq.2
  show (Master.sample m ((e.write (m.put false bit)).write (m.put true bit)),
    ((e.write (m.put false bit)).write (m.put true bit)).write
      (m.put false bit)) = _
  rw [write_low hw hset hm hclock, hhigh, hlow, hseen]

end

end ConsoleBoard.Eeprom
