/-
What the bytes of a master do to a part.

Between two clocks a part either takes a byte in (`Receiving`) or gives one
out (`Sending`); with no bits left to send it has let the line go and waits
for the answer. The lemmas of a clock lead from one of these states to the
next. The lemmas of a byte are their inductions over its bits, closed by the
clock of the answer, and say nothing about single clocks any more.

# The clocks

Each lemma of a clock names the rule for its rise and the rule for its fall
(`clock_receiving`, `clock_sending`, and one for each ninth clock). What bits
have gone is in the buffer, as the number that they make, so the induction over
eight of them is arithmetic (`le_shifted`, `ofNat_div_two_pow`).

# The bytes

A sent byte is an address of a write, one of a read, or data; a received one is
acknowledged or refused. These five, with the two conditions around them, are
all that a transaction is made of.
-/
import ConsoleBoard.Proofs.Eeprom.Master

namespace ConsoleBoard.Eeprom

section

variable {m : Mapper} {e : Eeprom}

-- ==================================================== the states of a part

/-- Nothing has been stored, and the address has stayed. -/
structure Keeps (e e' : Eeprom) : Prop where
  storage : e'.storage = e.storage
  address : e'.regs.address = e.regs.address

theorem Keeps.refl (e : Eeprom) : Keeps e e := ⟨rfl, rfl⟩

theorem Keeps.trans {e e' e'' : Eeprom} (h : Keeps e e') (h' : Keeps e' e'') :
    Keeps e e'' :=
  ⟨h'.storage.trans h.storage, h'.address.trans h.address⟩

/-- Between two clocks of a byte that the part takes in: `n` bits are in, and
make `v`. -/
structure Receiving (m : Mapper) (phase : Phase) (n : Nat) (v : UInt8)
    (e : Eeprom) : Prop where
  mapper : e.mapper = some m
  clock : e.regs.sclBefore = false
  phase : e.regs.phase = phase
  incoming : e.regs.shiftOut = false
  released : e.regs.sdaOut = true
  counter : e.regs.counter = n
  buffer : e.regs.buffer = v

/-- Between two clocks of a byte `v` that the part gives out: `n` bits are to
come, the first of them on the line. With none left the line is let go. -/
structure Sending (m : Mapper) (n : Nat) (v : UInt8) (e : Eeprom) : Prop where
  mapper : e.mapper = some m
  clock : e.regs.sclBefore = false
  phase : e.regs.phase = .readData
  outgoing : e.regs.shiftOut = true
  counter : e.regs.counter + n = 9
  line : e.regs.sdaOut = (n == 0 || v.toNat.testBit (n - 1))
  buffer : e.regs.buffer.toNat = v.toNat * 2 ^ (9 - n) % 256

/-- Both lines are high, and have been. -/
structure Registers.Idle (r : Registers) : Prop where
  scl : r.scl = true
  sdaIn : r.sdaIn = true
  sclBefore : r.sclBefore = true
  sdaInBefore : r.sdaInBefore = true

-- ====================================================== the bits of a byte

/-- The upper bits of a byte, and the next one behind them. -/
private theorem ofNat_div_two_pow (v : UInt8) (n : Nat) :
    UInt8.ofNat (v.toNat / 2 ^ (n + 1)) * 2
      + (if v.toNat.testBit n then 1 else 0)
      = UInt8.ofNat (v.toNat / 2 ^ n) := by
  have hv : v.toNat / 2 ^ n < 256 :=
    Nat.lt_of_le_of_lt (Nat.div_le_self _ _) v.toNat_lt
  have hhalf : v.toNat / 2 ^ (n + 1) = v.toNat / 2 ^ n / 2 := by
    rw [Nat.pow_succ, Nat.div_div_eq_div_mul]
  rw [Nat.testBit_eq_decide_div_mod_eq, hhalf]
  generalize v.toNat / 2 ^ n = x at hv
  apply UInt8.toNat_inj.1
  by_cases hodd : x % 2 = 1
  · simp only [hodd, decide_true, if_true, UInt8.toNat_add, UInt8.toNat_mul,
      UInt8.toNat_ofNat', UInt8.reduceToNat]
    omega
  · simp only [hodd, decide_false, Bool.false_eq_true, if_false,
      UInt8.toNat_add, UInt8.toNat_mul, UInt8.toNat_ofNat', UInt8.reduceToNat]
    omega

/-- The highest bit of a byte that has been shifted. -/
private theorem le_shifted (v : Nat) {n : Nat} (hn : n < 8) :
    decide (128 ≤ v * 2 ^ (7 - n) % 256) = v.testBit n := by
  have hback : 7 - (7 - n) = n := by omega
  have hbit : (v * 2 ^ (7 - n) % 2 ^ 8).testBit 7 = v.testBit n := by
    rw [Nat.testBit_mod_two_pow, Nat.testBit_mul_two_pow, hback]
    simp
  have hbyte : v * 2 ^ (7 - n) % 256 < 256 := Nat.mod_lt _ (by decide)
  rw [← hbit, Nat.testBit_eq_decide_div_mod_eq, decide_eq_decide]
  omega

/-- A byte that has not been shifted yet. -/
private theorem loaded_shifted (v : UInt8) :
    v.toNat = v.toNat * 2 ^ (8 - 8) % 256 := by
  have hv := v.toNat_lt
  omega

-- ==================================================== what needs no wiring

theorem stored_congr {e' : Eeprom} (h : e'.storage = e.storage) :
    stored e' = stored e := by
  unfold stored
  rw [h]

/-- A clock in which no byte becomes whole stores nothing. -/
theorem Reaction.storage_eq_of_part {chip : Chip} {access : Option Access}
    {e' : Eeprom} (h : Reaction chip e .rise access e')
    (hpart : e.regs.shiftOut = false → e.regs.counter < 8) :
    e'.storage = e.storage := by
  cases h with
  | byteIn hphase hin hcounter =>
      have hfew := hpart hin
      omega
  | _ => rfl

/-- The fall of a clock puts the next bit on the line, or lets the line go
behind the last. -/
private theorem fall_sending {n : Nat} {v : UInt8} (hm : e.mapper = some m)
    (hphase : e.regs.phase = .readData) (hout : e.regs.shiftOut = true)
    (hcounter : e.regs.counter + n = 8)
    (hbuffer : e.regs.buffer.toNat = v.toNat * 2 ^ (8 - n) % 256) (bit : Bool) :
    ∃ low, Reaction m.chip { e with
      regs := e.settle.regs.driven false bit } .fall none low
      ∧ Sending m n v low.settle ∧ Keeps e low.settle := by
  have hbusy : e.regs.phase ≠ .standby := by simp [hphase]
  -- behind the last bit the line goes; before it, the top bit of the buffer is
  -- the next one to show
  cases n with
  | zero =>
      have hempty : e.regs.buffer.toNat = v.toNat * 2 ^ (9 - 0) % 256 := by
        rw [hbuffer]
        omega
      exact ⟨_, .releaseOut hbusy hout hcounter,
        ⟨hm, rfl, hphase, hout, rfl, rfl, hempty⟩, rfl, rfl⟩
  | succ n =>
      have hfew : e.regs.counter < 8 := by omega
      have hshift : 8 - (n + 1) = 7 - n := by omega
      have hdouble : 2 ^ (9 - (n + 1)) = 2 ^ (7 - n) * 2 := by
        rw [← Nat.pow_succ]
        congr 1
        omega
      rw [hshift] at hbuffer
      refine ⟨_, .bitOut hbusy hout hfew,
        ⟨hm, rfl, hphase, hout, ?_, ?_, ?_⟩, rfl, rfl⟩
      · show e.regs.counter + 1 + (n + 1) = 9
        omega
      · show decide (128 ≤ e.regs.buffer) = v.toNat.testBit n
        rw [← le_shifted v.toNat (by omega), ← hbuffer]
        rfl
      · show (e.regs.buffer * 2).toNat = v.toNat * 2 ^ (9 - (n + 1)) % 256
        rw [hdouble, UInt8.toNat_mul, hbuffer, ← Nat.mul_assoc]
        exact Nat.mod_mul_mod _ _ _

-- the wiring of the master, and a part that has an address to speak of
variable (hw : m.OneByte) (hset : m.chip.sizeMask ≠ 0)

include hw hset

-- ==================================================== a byte that comes in

/-- One of the eight bits of a byte goes in. -/
theorem clock_receiving {phase : Phase} (hphase : phase ≠ .standby) {n : Nat}
    {v : UInt8} (h : Receiving m phase n v e) (hn : n < 8) (bit : Bool) :
    Receiving m phase (n + 1) (v * 2 + if bit then 1 else 0)
      (Master.clock m bit e).2
      ∧ Keeps e (Master.clock m bit e).2 := by
  have hphase' : e.regs.phase ≠ .standby := h.phase ▸ hphase
  have hfew : e.regs.counter < 8 := h.counter ▸ hn
  have hsda : (e.regs.atRise bit).sda = bit := by
    simp [Registers.sda, Registers.atRise, h.released]
  have hrise : Reaction m.chip { e with
      regs := e.regs.atRise bit } .rise none _ :=
    .bitIn hphase' h.incoming hfew
  rw [clock_eq hw hset h.mapper h.clock hrise (.fallIn hphase' h.incoming)]
  refine ⟨⟨h.mapper, rfl, h.phase, h.incoming, rfl, ?_, ?_⟩, rfl, rfl⟩
  · show (if 9 ≤ e.regs.counter + 1 then 0 else e.regs.counter + 1) = n + 1
    rw [if_neg (by omega), h.counter]
  · show e.regs.buffer * 2 + (if (e.regs.atRise bit).sda then 1 else 0) = _
    rw [hsda, h.buffer]

/-- The lower bits of a byte come in behind the upper ones. -/
theorem sendBits_receiving {phase : Phase} (hphase : phase ≠ .standby)
    (v : UInt8) {n : Nat} (hn : n ≤ 8)
    (h : Receiving m phase (8 - n) (UInt8.ofNat (v.toNat / 2 ^ n)) e) :
    Receiving m phase 8 v (Master.sendBits m v n e).2
      ∧ Keeps e (Master.sendBits m v n e).2 := by
  induction n generalizing e with
  | zero =>
      rw [Nat.pow_zero, Nat.div_one, UInt8.ofNat_toNat] at h
      exact ⟨h, .refl e⟩
  | succ n ih =>
      have hstep :=
        clock_receiving hw hset hphase h (by omega) (v.toNat.testBit n)
      have hcount : 8 - (n + 1) + 1 = 8 - n := by omega
      rw [ofNat_div_two_pow, hcount] at hstep
      obtain ⟨hrest, hkeeps⟩ := ih (by omega) hstep.1
      exact ⟨hrest, hstep.2.trans hkeeps⟩

/-- All eight bits of a byte. -/
theorem sendBits_eight {phase : Phase} (hphase : phase ≠ .standby) (v : UInt8)
    (h : Receiving m phase 0 0 e) :
    Receiving m phase 8 v (Master.sendBits m v 8 e).2
      ∧ Keeps e (Master.sendBits m v 8 e).2 := by
  refine sendBits_receiving hw hset hphase v (Nat.le_refl 8) ?_
  have hzero : v.toNat / 2 ^ 8 = 0 := Nat.div_eq_of_lt v.toNat_lt
  rw [hzero]
  exact h

/-- The answer to an address byte that announces a write. -/
theorem clock_addressWrite {v : UInt8} (hv : v % 2 ≠ 1)
    (h : Receiving m .wordAddress 8 v e) :
    (Master.clock m true e).1 = false
      ∧ Receiving m .writeData 0 0 (Master.clock m true e).2
      ∧ (Master.clock m true e).2.storage = e.storage
      ∧ (Master.clock m true e).2.regs.address = (v / 2).toUInt16 := by
  obtain rfl := h.buffer
  have hwriting : Phase.writeData ≠ .standby := by decide
  have hrise : Reaction m.chip { e with
      regs := e.regs.atRise true } .rise none _ :=
    .addressWrite h.phase h.incoming (Nat.le_of_eq h.counter.symm) hv
  rw [clock_eq hw hset h.mapper h.clock hrise (.fallIn hwriting rfl)]
  exact ⟨rfl, ⟨h.mapper, rfl, rfl, rfl, rfl, rfl, rfl⟩, rfl, rfl⟩

/-- The answer to a byte of data: it is stored, and the address advances
within its page. -/
theorem clock_data {v : UInt8} (h : Receiving m .writeData 8 v e) :
    (Master.clock m true e).1 = false
      ∧ Receiving m .writeData 0 0 (Master.clock m true e).2
      ∧ (Master.clock m true e).2.storage
        = e.storage.setIfInBounds e.regs.address.toNat v
      ∧ (Master.clock m true e).2.regs.address
        = nextInPage m.chip e.regs.address := by
  obtain rfl := h.buffer
  have hbusy : e.regs.phase ≠ .standby := by simp [h.phase]
  have hrise : Reaction m.chip { e with
      regs := e.regs.atRise true } .rise _ _ :=
    .byteIn h.phase h.incoming (Nat.le_of_eq h.counter.symm)
  rw [clock_eq hw hset h.mapper h.clock hrise (.fallIn hbusy h.incoming)]
  refine ⟨rfl, ⟨h.mapper, rfl, h.phase, h.incoming, rfl, ?_, rfl⟩, rfl, rfl⟩
  show (if 9 ≤ e.regs.counter + 1 then 0 else e.regs.counter + 1) = 0
  rw [h.counter]
  rfl

-- ==================================================== a byte that goes out

/-- While bits are left, a clock shows the first of them. -/
theorem clock_sending {n : Nat} {v : UInt8} (h : Sending m (n + 1) v e) :
    (Master.clock m true e).1 = v.toNat.testBit n
      ∧ Sending m n v (Master.clock m true e).2
      ∧ Keeps e (Master.clock m true e).2 := by
  have hcounter := h.counter
  have hbusy : e.regs.phase ≠ .standby := by simp [h.phase]
  have hheld : ¬(9 ≤ e.regs.counter ∧ (e.regs.atRise true).sda = false) := by
    omega
  have hrise : Reaction m.chip { e with
      regs := e.regs.atRise true } .rise none _ :=
    .riseOut hbusy h.outgoing hheld
  have hshift : 8 - n = 9 - (n + 1) := by omega
  obtain ⟨low, hfall, hlow, hkeeps⟩ :=
    fall_sending (e := { e with regs := e.regs.atRise true }) h.mapper h.phase
      h.outgoing (by show e.regs.counter + n = 8; omega) (hshift ▸ h.buffer)
      true
  rw [clock_eq hw hset h.mapper h.clock hrise hfall]
  refine ⟨?_, hlow, hkeeps.storage, hkeeps.address⟩
  show (true && e.regs.sdaOut) = v.toNat.testBit n
  rw [h.line]
  simp

/-- An acknowledgement brings the next byte. -/
theorem clock_acknowledge {v : UInt8} (h : Sending m 0 v e) :
    Sending m 8 (e.stored ((e.regs.address + 1) &&& m.chip.sizeMask))
      (Master.clock m false e).2
      ∧ (Master.clock m false e).2.storage = e.storage
      ∧ (Master.clock m false e).2.regs.address
        = (e.regs.address + 1) &&& m.chip.sizeMask := by
  have hrise : Reaction m.chip { e with
      regs := e.regs.atRise false } .rise _ _ :=
    .nextOut h.phase h.outgoing (Nat.le_of_eq h.counter.symm) rfl
  obtain ⟨low, hfall, hlow, hkeeps⟩ :=
    fall_sending (n := 8)
      (v := e.stored ((e.regs.address + 1) &&& m.chip.sizeMask))
      (e := { e with regs := { e.regs.atRise false with
        address := (e.regs.address + 1) &&& m.chip.sizeMask, counter := 0
        buffer := e.stored ((e.regs.address + 1) &&& m.chip.sizeMask) } })
      h.mapper h.phase h.outgoing rfl (loaded_shifted _) false
  rw [clock_eq hw hset h.mapper h.clock hrise hfall]
  exact ⟨hlow, hkeeps.storage, hkeeps.address⟩

/-- A byte that is not acknowledged is the last. -/
theorem clock_refuse {v : UInt8} (h : Sending m 0 v e) :
    Sending m 0 v (Master.clock m true e).2
      ∧ Keeps e (Master.clock m true e).2 := by
  have hbusy : e.regs.phase ≠ .standby := by simp [h.phase]
  have hhigh : (e.regs.atRise true).sda = true := h.line
  have hrise : Reaction m.chip { e with
      regs := e.regs.atRise true } .rise none _ :=
    .riseOut hbusy h.outgoing (by simp [hhigh])
  have hfall : Reaction m.chip
      { e with regs := (settle { e with
            regs := e.regs.atRise true }).regs.driven false true }
      .fall none _ :=
    .fallOut hbusy h.outgoing (Nat.le_of_eq h.counter.symm)
  rw [clock_eq hw hset h.mapper h.clock hrise hfall]
  exact ⟨⟨h.mapper, rfl, h.phase, h.outgoing, h.counter, h.line, h.buffer⟩, rfl,
    rfl⟩

/-- The upper bits of a byte that is still coming make the whole of it. -/
theorem receiveBits_sending {n : Nat} {v : UInt8} (h : Sending m n v e) :
    let out := Master.receiveBits m (UInt8.ofNat (v.toNat / 2 ^ n)) n e
    out.1 = v ∧ Sending m 0 v out.2 ∧ Keeps e out.2 := by
  induction n generalizing e with
  | zero =>
      rw [Nat.pow_zero, Nat.div_one, UInt8.ofNat_toNat]
      exact ⟨rfl, h, .refl e⟩
  | succ n ih =>
      obtain ⟨hseen, hstep, hkeeps⟩ := clock_sending hw hset h
      obtain ⟨hread, hlast, hkeeps'⟩ := ih hstep
      rw [← ofNat_div_two_pow, ← hseen] at hread hlast hkeeps'
      exact ⟨hread, hlast, hkeeps.trans hkeeps'⟩

/-- The answer to an address byte that asks for a read: the byte at that
address comes next. -/
theorem clock_addressRead {v : UInt8} (hv : v % 2 = 1)
    (h : Receiving m .wordAddress 8 v e) :
    (Master.clock m true e).1 = false
      ∧ Sending m 8 (e.stored (v / 2).toUInt16) (Master.clock m true e).2
      ∧ (Master.clock m true e).2.storage = e.storage
      ∧ (Master.clock m true e).2.regs.address = (v / 2).toUInt16 := by
  obtain rfl := h.buffer
  have hrise : Reaction m.chip { e with
      regs := e.regs.atRise true } .rise _ _ :=
    .addressRead h.phase h.incoming (Nat.le_of_eq h.counter.symm) hv
  obtain ⟨low, hfall, hlow, hkeeps⟩ :=
    fall_sending (n := 8) (v := e.stored (e.regs.buffer / 2).toUInt16)
      (e := { e with regs := { e.regs.atRise true with
        sdaOut := false, address := (e.regs.buffer / 2).toUInt16, rw := true,
        counter := 0
        buffer := e.stored (e.regs.buffer / 2).toUInt16, shiftOut := true
        phase := .readData } })
      h.mapper rfl rfl rfl (loaded_shifted _) true
  rw [clock_eq hw hset h.mapper h.clock hrise hfall]
  exact ⟨rfl, hlow, hkeeps.storage, hkeeps.address⟩

-- ============================================================= whole bytes

/-- The address byte of a write is acknowledged and sets the address. -/
theorem send_addressWrite {v : UInt8} (hv : v % 2 ≠ 1)
    (h : Receiving m .wordAddress 0 0 e) :
    (Master.send m v e).1 = true
      ∧ Receiving m .writeData 0 0 (Master.send m v e).2
      ∧ (Master.send m v e).2.storage = e.storage
      ∧ (Master.send m v e).2.regs.address = (v / 2).toUInt16 := by
  obtain ⟨hwhole, hkeeps⟩ := sendBits_eight hw hset (by decide) v h
  obtain ⟨hseen, hnext, hstorage, haddress⟩ :=
    clock_addressWrite hw hset hv hwhole
  rw [Master.send_eq, hseen]
  exact ⟨rfl, hnext, hstorage.trans hkeeps.storage, haddress⟩

/-- A byte of data is acknowledged and stored. -/
theorem send_data (v : UInt8) (h : Receiving m .writeData 0 0 e) :
    (Master.send m v e).1 = true
      ∧ Receiving m .writeData 0 0 (Master.send m v e).2
      ∧ (Master.send m v e).2.storage
        = e.storage.setIfInBounds e.regs.address.toNat v
      ∧ (Master.send m v e).2.regs.address
        = nextInPage m.chip e.regs.address := by
  obtain ⟨hwhole, hkeeps⟩ := sendBits_eight hw hset (by decide) v h
  obtain ⟨hseen, hnext, hstorage, haddress⟩ := clock_data hw hset hwhole
  rw [hkeeps.storage, hkeeps.address] at hstorage
  rw [hkeeps.address] at haddress
  rw [Master.send_eq, hseen]
  exact ⟨rfl, hnext, hstorage, haddress⟩

/-- The address byte of a read is acknowledged and loads a byte. -/
theorem send_addressRead {v : UInt8} (hv : v % 2 = 1)
    (h : Receiving m .wordAddress 0 0 e) :
    (Master.send m v e).1 = true
      ∧ Sending m 8 (e.stored (v / 2).toUInt16) (Master.send m v e).2
      ∧ (Master.send m v e).2.storage = e.storage
      ∧ (Master.send m v e).2.regs.address = (v / 2).toUInt16 := by
  obtain ⟨hwhole, hkeeps⟩ := sendBits_eight hw hset (by decide) v h
  obtain ⟨hseen, hnext, hstorage, haddress⟩ :=
    clock_addressRead hw hset hv hwhole
  rw [stored_congr hkeeps.storage] at hnext
  rw [Master.send_eq, hseen]
  exact ⟨rfl, hnext, hstorage.trans hkeeps.storage, haddress⟩

/-- All eight bits of a byte. -/
private theorem receiveBits_eight {v : UInt8} (h : Sending m 8 v e) :
    let out := Master.receiveBits m 0 8 e
    out.1 = v ∧ Sending m 0 v out.2 ∧ Keeps e out.2 := by
  have hzero : v.toNat / 2 ^ 8 = 0 := Nat.div_eq_of_lt v.toNat_lt
  have hall := receiveBits_sending hw hset h
  rw [hzero] at hall
  exact hall

/-- A byte that is acknowledged is followed by the next one, the addresses
counted through the whole part. -/
theorem receive_acknowledge {v : UInt8} (h : Sending m 8 v e) :
    let out := Master.receive m true e
    out.1 = v ∧ Sending m 8
      (e.stored ((e.regs.address + 1) &&& m.chip.sizeMask)) out.2
      ∧ out.2.storage = e.storage
      ∧ out.2.regs.address = (e.regs.address + 1) &&& m.chip.sizeMask := by
  obtain ⟨hread, hlast, hkeeps⟩ := receiveBits_eight hw hset h
  obtain ⟨hnext, hstorage, haddress⟩ := clock_acknowledge hw hset hlast
  rw [stored_congr hkeeps.storage, hkeeps.address] at hnext
  rw [hkeeps.address] at haddress
  rw [Master.receive_eq]
  exact ⟨hread, hnext, hstorage.trans hkeeps.storage, haddress⟩

/-- The last byte leaves the part waiting for an answer. -/
theorem receive_refuse {v : UInt8} (h : Sending m 8 v e) :
    let out := Master.receive m false e
    out.1 = v ∧ Sending m 0 v out.2 ∧ out.2.storage = e.storage := by
  obtain ⟨hread, hlast, hkeeps⟩ := receiveBits_eight hw hset h
  obtain ⟨hend, hkeeps'⟩ := clock_refuse hw hset hlast
  rw [Master.receive_eq]
  exact ⟨hread, hend, (hkeeps.trans hkeeps').storage⟩

-- ========================================================== the conditions

/-- A fall of the data line while the clock is high readies a part with
single-byte addressing for an address byte, whatever it was doing. -/
theorem start_receiving (hsingle : m.chip.addressing = .single)
    (hm : e.mapper = some m) (hclock : e.regs.sclBefore = true)
    (hdata : e.regs.sdaInBefore = true) :
    Receiving m .wordAddress 0 0 (Master.start m e).2
      ∧ (Master.start m e).2.storage = e.storage := by
  have hstart : e.write (m.put true false)
      = settle { e with regs :=
          { (e.regs.driven true false).resetShift with
            phase := .wordAddress } } := by
    have hevent : (e.regs.driven true false).event = .start := by
      simp [Registers.event, Registers.driven, hclock, hdata]
    rw [write_put hw hset hm, hevent, (Reaction.start hsingle).eq_react]
  have hwaiting : Phase.wordAddress ≠ .standby := by decide
  have hlow := write_fall (e := settle { e with regs :=
    { (e.regs.driven true false).resetShift with phase := .wordAddress } })
    hw hset hm rfl false (.fallIn hwaiting rfl)
  show Receiving m .wordAddress 0 0
    ((e.write (m.put true false)).write (m.put false false))
    ∧ ((e.write (m.put true false)).write (m.put false false)).storage
      = e.storage
  rw [hstart, hlow]
  exact ⟨⟨hm, rfl, rfl, rfl, rfl, rfl, rfl⟩, rfl⟩

/-- A rise of the data line while the clock is high ends every transaction.
The clock before it stores nothing unless it makes a byte whole. -/
theorem stop_idle (hm : e.mapper = some m) (hclock : e.regs.sclBefore = false)
    (hpart : e.regs.shiftOut = false → e.regs.counter < 8) :
    let out := (Master.stop m e).2
    out.mapper = some m ∧ out.regs.Idle ∧ out.regs.phase = .standby
      ∧ out.storage = e.storage := by
  -- the rise may do anything that stores nothing, the stop undoes it
  have hrise :=
    reaction_react m.chip { e with regs := e.regs.atRise false } .rise
  have hstored := hrise.storage_eq_of_part hpart
  have hhigh :=
    write_rise (e := settle { e with regs := e.regs.driven false false })
      hw hset hm rfl false hrise
  generalize react m.chip { e with regs := e.regs.atRise false } .rise
    = high at hrise hstored hhigh
  have hm' : high.settle.mapper = some m := hrise.mapper_eq.trans hm
  have hevent : (high.settle.regs.driven true true).event = .stop := by
    have hscl : high.settle.regs.sclBefore = true := hrise.lines_eq.1
    have hsda : high.settle.regs.sdaInBefore = false := hrise.lines_eq.2
    simp [Registers.event, Registers.driven, hscl, hsda]
  show
    let out :=
      ((e.write (m.put false false)).write (m.put true false)).write
        (m.put true true)
    out.mapper = some m ∧ out.regs.Idle ∧ out.regs.phase = .standby
      ∧ out.storage = e.storage
  rw [write_low hw hset hm hclock, hhigh, write_put hw hset hm', hevent]
  exact ⟨hm', ⟨rfl, rfl, rfl, rfl⟩, rfl, hstored⟩

end

end ConsoleBoard.Eeprom
