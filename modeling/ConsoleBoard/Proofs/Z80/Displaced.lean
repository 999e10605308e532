/-
(IX+d) and (IY+d) do to their byte what (HL) does.

Behind DD CB and FD CB the displacement stands before the opcode. Its byte is
found as behind a single prefix, and the operation is one of the CB page, so
it may as well run there with HL and WZ on the byte: what it makes of the byte
is a function of the byte, of the high half of WZ and of the flags
(`BitOp.outcome`). The copy of the result to a register is all that is added
(`apply_copied`). Together with the forms behind one prefix
(`instruction_displaced`) these are all the opcodes with a displacement.

# Two routes to one page

The opcode behind the displacement is one of the CB page with a register in
its low bits, and the plain opcode that it is compared with has the memory
operand there (`ofBitOpcode_masked`). On the one route the byte is found by the
index register, on the other by HL, which has been put on it (`Cpu.pointing`),
and both apply the same operation to the same byte (`apply_cell`).
-/
import ConsoleBoard.Proofs.Z80.MemoryForm

namespace ConsoleBoard.Z80

open Micro

variable {σ : Type}

-- =================================================== behind two page bytes

/-- What an operation of the CB page makes of a byte in memory, when WZ has
`high` above: the flags, and the byte that it stores. -/
def BitOp.outcome (op : BitOp) (v high : UInt8) (f : Flags) :
    Flags × Option UInt8 :=
  match op with
  | .shift s => ((Alu.shiftFlags s v f.c).2, some (Alu.shiftFlags s v f.c).1)
  | .test n => (Alu.testBit n v high f, none)
  | .reset n => (f, some (v &&& ~~~Alu.mask n))
  | .set n => (f, some (v ||| Alu.mask n))

/-- The registers with a byte in one of them, if any. -/
def Registers.copied (regs : Registers) (v : UInt8) : Option ByteReg → Registers
  | some r => regs.set v r
  | none => regs

/-- The register that an operation behind DD CB or FD CB copies its result to:
the real one of the low three bits, but BIT has no result. -/
def copiedRegister (op : UInt8) : Option ByteReg :=
  match quarter op with
  | 1 => none
  | _ => ByteReg.ofCode? .hl (column op)

/-- An operation of the CB page on memory is its outcome, written. -/
theorem apply_cell (op : BitOp) (address : UInt16) (copy : Option ByteReg)
    (bus : Bus σ) (cpu : Cpu) (host : σ) :
    let found := bus.memory.readByte address host
    let outcome := op.outcome found.1 (Pair.ofWord cpu.regs.wz).high cpu.regs.f
    let flagged := { cpu.regs with f := outcome.1 }
    op.apply (.cell address) copy bus cpu host
      = match outcome.2 with
        | none => (((), { cpu with regs := flagged }), found.2)
        | some v => (((), { cpu with regs := flagged.copied v copy }),
            (bus.memory.writeByte address v found.2).2) := by
  cases op <;> cases copy <;> rfl

/-- The core with HL and WZ on an address. -/
def Cpu.pointing (cpu : Cpu) (address : UInt16) : Cpu :=
  { cpu with regs := { cpu.regs with hl := .ofWord address, wz := address } }

/-- The core behind two page bytes, a displacement and an opcode. -/
def Cpu.pastBits (cpu : Cpu) (address : UInt16) : Cpu :=
  { cpu with regs := { cpu.regs with
      pc := cpu.regs.pc + 4
      r := Registers.refresh cpu.regs.r 2
      wz := address } }

/-- BIT is what stores nothing. -/
theorem outcome_eq_none_iff (op v high : UInt8) (f : Flags) :
    ((BitOp.ofOpcode op).outcome v high f).2 = none ↔ quarter op = 1 := by
  unfold BitOp.ofOpcode
  generalize quarter op = page
  obtain rfl | rfl | rfl | rfl : page = 0 ∨ page = 1 ∨ page = 2
    ∨ page = 3 := by omega
  · exact iff_of_false nofun (by decide)
  · exact iff_of_true rfl rfl
  · exact iff_of_false nofun (by decide)
  · exact iff_of_false nofun (by decide)

/-- An operation with a copy of its result, beside the same one without on a
core with the same flags and the same WZ. -/
theorem apply_copied {bus plainBus : Bus σ} {peek : σ → UInt16 → UInt8}
    {host : σ} (hram : bus.RamAt peek host)
    (hmemory : plainBus.memory = bus.memory) {plainCpu : Cpu}
    (cpu : Cpu) (hf : plainCpu.regs.f = cpu.regs.f)
    (hwz : plainCpu.regs.wz = cpu.regs.wz) (last : UInt8) (address : UInt16) :
    let done := (BitOp.ofOpcode last).apply (.cell address)
      (ByteReg.ofCode? .hl (column last)) bus cpu host
    let plain :=
      (BitOp.ofOpcode last).apply (.cell address) none plainBus plainCpu host
    done.2 = plain.2
      ∧ (∀ a, a ≠ address → peek done.2 a = peek host a)
      ∧ done.1.2 = { cpu with
          regs := ({ cpu.regs with f := plain.1.2.regs.f }).copied
            (peek done.2 address) (copiedRegister last) } := by
  intro done plain
  have hdone : done = _ :=
    apply_cell (BitOp.ofOpcode last) address _ bus cpu host
  have hplain : plain = _ :=
    apply_cell (BitOp.ofOpcode last) address none plainBus plainCpu host
  rw [hmemory, hf, hwz] at hplain
  rw [hram.read] at hdone hplain
  have hbit :=
    outcome_eq_none_iff last (peek host address)
      (Pair.ofWord cpu.regs.wz).high cpu.regs.f
  cases hstored : ((BitOp.ofOpcode last).outcome (peek host address)
      (Pair.ofWord cpu.regs.wz).high cpu.regs.f).2 with
  -- only BIT stores nothing, and it has no copy either
  | none =>
      rw [hstored] at hdone hplain
      have hcopy : copiedRegister last = none := by
        unfold copiedRegister
        rw [hbit.1 hstored]
        rfl
      rw [hdone, hplain, hcopy]
      exact ⟨rfl, fun _ _ => rfl, rfl⟩
  | some v =>
      rw [hstored] at hdone hplain
      have hquarter : quarter last ≠ 1 := mt hbit.2 (by rw [hstored]; nofun)
      have hcopy : copiedRegister last = ByteReg.ofCode? .hl (column last) := by
        unfold copiedRegister
        split
        next hone => exact absurd hone hquarter
        next => rfl
      have hwritten := hram.write address v
      rw [hdone, hplain, hcopy]
      dsimp only
      rw [hwritten, if_pos rfl]
      exact ⟨rfl, fun a ha => (hwritten a).trans (if_neg ha), rfl⟩

/-- With six in its low bits, an opcode of the CB page does the same to the
byte at HL. -/
theorem ofBitOpcode_masked (op : UInt8) :
    Instruction.ofBitOpcode (op &&& 0xF8 ||| 6)
      = .bits (BitOp.ofOpcode op) (.memory .hl) := by
  have hall : ∀ n : Fin 256,
      BitOp.ofOpcode (.ofFin n &&& 0xF8 ||| 6) = BitOp.ofOpcode (.ofFin n)
        ∧ column (.ofFin n &&& 0xF8 ||| 6) = 6 := by decide +kernel
  obtain ⟨hbits, hcolumn⟩ := hall op.toFin
  show Instruction.bits (BitOp.ofOpcode (op &&& 0xF8 ||| 6))
    (Operand.ofCode .hl (column (op &&& 0xF8 ||| 6))) = _
  rw [show op &&& 0xF8 ||| 6 = .ofFin op.toFin &&& 0xF8 ||| 6 from rfl,
    hbits, hcolumn]
  rfl

/-- The second page byte and the displacement take eight T-states. -/
theorem cost_indexedBits {x : Index} (hx : x ≠ .hl) (op : BitOp) :
    2 * pageCost + (Instruction.bits op (.memory x)).cost
      = pageCost + (Instruction.bits op (.memory .hl)).cost + 8 := by
  cases x with
  | hl => exact absurd rfl hx
  | ix | iy => cases op <;> rfl

/-- The displacement is fetched first, then the opcode, and neither of them
counts as a refresh cycle. -/
theorem indexedBits_eq (x : Index) {bus : Bus σ} {cpu : Cpu}
    {host host' host'' : σ} {d last : UInt8}
    (hdisplacement : bus.fetch cpu.regs.pc host = (d, host'))
    (hlast : bus.fetch (cpu.regs.pc + 1) host' = (last, host'')) :
    let address := (cpu.regs.index x).toWord + signExtend d
    let found := { cpu with
      regs := { cpu.regs with pc := cpu.regs.pc + 1 + 1, wz := address } }
    let done := (BitOp.ofOpcode last).apply (.cell address)
      (ByteReg.ofCode? .hl (column last)) bus found host''
    indexedBits x bus cpu host
      = ((2 * pageCost + (Instruction.bits (BitOp.ofOpcode last)
            (.memory x)).cost, done.1.2),
          done.2) := by
  have hd : (bus.fetch cpu.regs.pc host).1 = d :=
    congrArg Prod.fst hdisplacement
  have hhost : (bus.fetch cpu.regs.pc host).2 = host' :=
    congrArg Prod.snd hdisplacement
  subst hd hhost
  have hop : (bus.fetch (cpu.regs.pc + 1) (bus.fetch cpu.regs.pc host).2).1
      = last :=
    congrArg Prod.fst hlast
  have hhost : (bus.fetch (cpu.regs.pc + 1) (bus.fetch cpu.regs.pc host).2).2
      = host'' :=
    congrArg Prod.snd hlast
  subst hop hhost
  cases x <;> rfl

/-- An operation of the CB page on the byte at HL, fed to a core. -/
theorem instruction_bits (last : UInt8) (bus : Bus σ) (cpu : Cpu) (host : σ) :
    let plainBus := bus.feeding cpu.regs.pc [0xCB, last &&& 0xF8 ||| 6]
    let done := (BitOp.ofOpcode last).apply (.cell cpu.regs.hl.toWord) none
      plainBus (cpu.unshadowed.skipped 2) host
    instruction plainBus cpu host
      = ((pageCost + (Instruction.bits (BitOp.ofOpcode last)
            (.memory .hl)).cost, done.1.2),
          done.2) := by
  intro plainBus done
  have hpage : plainBus.fetch cpu.regs.pc host = (0xCB, host) :=
    fetch_feeding_start _ _ _ _ _
  have hopcode : plainBus.fetch (cpu.regs.pc + 1) host
      = (last &&& 0xF8 ||| 6, host) :=
    fetch_feeding (by decide) rfl host
  have hdispatch : (dispatch 0xCB : Micro σ Nat)
      = fetchOpcode >>= fun op =>
        perform pageCost (Instruction.ofBitOpcode op) := rfl
  rw [instruction_paged hdispatch hpage hopcode, ofBitOpcode_masked]
  rfl

section

variable {b : UInt8} {x : Index} {bus : Bus σ} {peek : σ → UInt16 → UInt8}
  {cpu : Cpu} {host : σ}

/-- An operation behind DD CB or FD CB, behind its four bytes. -/
theorem instruction_copied (hselects : Selects b x) (hram : bus.RamAt peek host)
    (hstart : peek host cpu.regs.pc = b)
    (hop : peek host (cpu.regs.pc + 1) = 0xCB) :
    let address :=
      (cpu.regs.index x).toWord + signExtend (peek host (cpu.regs.pc + 2))
    let op := BitOp.ofOpcode (peek host (cpu.regs.pc + 3))
    let done := op.apply (.cell address)
      (ByteReg.ofCode? .hl (column (peek host (cpu.regs.pc + 3))))
      bus (cpu.unshadowed.pastBits address) host
    instruction bus cpu host
      = ((2 * pageCost + (Instruction.bits op (.memory x)).cost, done.1.2),
        done.2) := by
  intro address op done
  have hfirst : bus.fetch cpu.regs.pc host = (b, host) := hstart ▸ hram.fetch _
  have hsecond : bus.fetch (cpu.regs.pc + 1) host = (0xCB, host) :=
    hop ▸ hram.fetch _
  have hdisplacement : bus.fetch (cpu.unshadowed.skipped 2).regs.pc host
      = (peek host (cpu.regs.pc + 2), host) := hram.fetch _
  have hpc : (cpu.unshadowed.skipped 2).regs.pc + 1 = cpu.regs.pc + 3 :=
    UInt16.add_assoc _ _ _
  have hlast : bus.fetch ((cpu.unshadowed.skipped 2).regs.pc + 1) host
      = (peek host (cpu.regs.pc + 3), host) := by rw [hpc, hram.fetch]
  have hfound : { cpu.unshadowed.skipped 2 with
      regs := { (cpu.unshadowed.skipped 2).regs with
      pc := (cpu.unshadowed.skipped 2).regs.pc + 1 + 1, wz := address } }
        = cpu.unshadowed.pastBits address := by
    rw [hpc, UInt16.add_assoc]
    rfl
  -- the displacement and the opcode are read before the operation is known
  rw [instruction_paged hselects.dispatch_eq hfirst hsecond]
  show indexedBits x bus (cpu.unshadowed.skipped 2) host = _
  rw [indexedBits_eq x hdisplacement hlast, index_skipped, hfound]

/-- An operation behind DD CB or FD CB is the one of the CB page with HL and WZ
on the byte; beside it, the result is copied to a register. -/
theorem instruction_indexedBits (hselects : Selects b x)
    (hram : bus.RamAt peek host) (hstart : peek host cpu.regs.pc = b)
    (hop : peek host (cpu.regs.pc + 1) = 0xCB) :
    let address :=
      (cpu.regs.index x).toWord + signExtend (peek host (cpu.regs.pc + 2))
    let last := peek host (cpu.regs.pc + 3)
    let run := instruction bus cpu host
    let plain :=
      instruction (bus.feeding cpu.regs.pc [0xCB, last &&& 0xF8 ||| 6])
        (cpu.pointing address) host
    let found := cpu.unshadowed.pastBits address
    run = ((plain.1.1 + 8, { found with
        regs := ({ found.regs with f := plain.1.2.regs.f }).copied
          (peek run.2 address) (copiedRegister last) }), plain.2)
      ∧ ∀ a, a ≠ address → peek run.2 a = peek host a := by
  intro address last run plain found
  have hrun : run = _ := instruction_copied hselects hram hstart hop
  have hplain : plain = _ :=
    instruction_bits last bus (cpu.pointing address) host
  rw [show (cpu.pointing address).regs.hl.toWord = address
    from Pair.toWord_ofWord address] at hplain
  let plainBus :=
    bus.feeding (cpu.pointing address).regs.pc [0xCB, last &&& 0xF8 ||| 6]
  let plainFound := (cpu.pointing address).unshadowed.skipped 2
  have hmemory : plainBus.memory = bus.memory := rfl
  have hf : plainFound.regs.f = found.regs.f := rfl
  have hwz : plainFound.regs.wz = found.regs.wz := rfl
  obtain ⟨hhost, hothers, hcpu⟩ :=
    apply_copied hram hmemory found hf hwz last address
  rw [hrun, hplain]
  exact ⟨Prod.ext (Prod.ext (cost_indexedBits hselects.ne_hl _) hcpu) hhost,
    hothers⟩

/-- (IX+d) and (IY+d) are read as "(HL), elsewhere". Let RAM be the memory and a
prefix byte be at PC. Behind it stand an opcode and a displacement, which is
signed and gives the address with the index register, wrapping.

An opcode with an operand in memory does what the plain one does, in its
place and on the same memory, with the accesses to HL redirected to the
address: every register comes out the same but PC, which is two further, R,
which counts one cycle more, and WZ, which has the address. No other byte
changes; a load reaches the real H or L and no half of an index register.

Behind DD CB or FD CB, the opcode behind the displacement does what the CB page
does to the byte at HL with HL and WZ on the address: memory and F come out
the same, it takes eight T-states more, and R counts two cycles. The result is
also copied to the register of the low three bits, but not by BIT, and no
other register changes. -/
theorem displaced_as_plain (hselects : Selects b x) (hram : bus.RamAt peek host)
    (hstart : peek host cpu.regs.pc = b) :
    let op := peek host (cpu.regs.pc + 1)
    let d := peek host (cpu.regs.pc + 2)
    let last := peek host (cpu.regs.pc + 3)
    let address := (cpu.regs.index x).toWord + signExtend d
    let run := instruction bus cpu host
    (address.toNat : Int)
      = ((cpu.regs.index x).toWord.toNat + d.toInt8.toInt) % 65536
      ∧ (hasMemoryOperand op = true →
          let plain := instruction
            ((bus.redirected cpu.regs.hl.toWord address).feeding cpu.regs.pc
              [op, last]) cpu host
          run = ((plain.1.1 + (if op = 0x36 then 9 else 12),
              plain.1.2.displaced address), plain.2)
            ∧ (∀ a, a ≠ address → peek run.2 a = peek host a)
            ∧ (∀ r, loadedRegister op = some r →
              run.1.2.regs.get r = peek host address)
            ∧ (∀ r, r ≠ .a → loadedRegister op ≠ some r →
                run.1.2.regs.get r = cpu.regs.get r)
            ∧ ∀ y, y ≠ .hl → run.1.2.regs.index y = cpu.regs.index y)
      ∧ (op = 0xCB →
          let plain :=
            instruction (bus.feeding cpu.regs.pc [0xCB, last &&& 0xF8 ||| 6])
              (cpu.pointing address) host
          let found := cpu.unshadowed.pastBits address
          run = ((plain.1.1 + 8, { found with
              regs := ({ found.regs with f := plain.1.2.regs.f }).copied
                (peek run.2 address) (copiedRegister last) }), plain.2)
            ∧ ∀ a, a ≠ address → peek run.2 a = peek host a)
      ∧ (cpu.acceptable = none → cpu.halted = false →
        step bus cpu host = run) := by
  intro op d last address run
  refine ⟨toNat_add_signExtend _ d, fun hmemory => ?_, fun hop => ?_,
    fun hnone hawake => ?_⟩
  · obtain ⟨hplain, hothers, hloaded, hkept⟩ :=
      instruction_displaced hselects hram hstart hmemory
    refine ⟨hplain, hothers, hloaded, hkept, fun y hy => ?_⟩
    -- a load goes to one of the real halves, so neither half of `y` is it
    obtain ⟨hhigh, hlow⟩ := loadedRegister_ne hy
    exact Registers.index_of_get (hkept _ nofun hhigh) (hkept _ nofun hlow)
  · exact instruction_indexedBits hselects hram hstart hop
  · rw [step_eq, hnone, hawake]
    rfl

end

/-- A bus with nothing but RAM, as a function of the address. -/
def Bus.cells : Bus (UInt16 → UInt8) :=
  .ofParts
    (.ofBytes (fun a cells => (cells a, cells))
      fun a v cells => ((), fun a' => if a' = a then v else cells a'))
    .unconnected .unconnected

/-- Memory of cells of its own is RAM. -/
theorem ramAt_cells (cells : UInt16 → UInt8) : Bus.cells.RamAt id cells where
  fetch _ := rfl
  read _ := rfl
  write _ _ _ := rfl

/-- `LD H,(IX-1)` with a byte in front of 4000h. -/
def displacedLoad : UInt16 → UInt8
  | 0 => 0xDD
  | 1 => 0x66
  | 2 => 0xFF
  | 0x3FFF => 0x5A
  | _ => 0

/-- `SET 0,(IY+1)`, which also goes to B, with a byte behind FFFFh. -/
def displacedSet : UInt16 → UInt8
  | 0x10 => 0xFD
  | 0x11 => 0xCB
  | 0x12 => 0x01
  | 0x13 => 0xC0
  | 0 => 0x5A
  | _ => 0

/-- `LD H,(IX-1)` loads H and no half of IX, in 19 T-states, since `LD H,(HL)`
takes 7; `SET 0,(IY+1)` with IY at the last address sets a bit of the byte at
zero and leaves the result in B, in 23, since `SET 0,(HL)` takes 15. -/
theorem displaced_as_plain_wraps :
    let cpu : Cpu := { Cpu.powerOn with
      regs := { Registers.powerOn with
        ix := ⟨0x40, 0x00⟩, hl := ⟨0x12, 0x34⟩ } }
    let loaded := instruction Bus.cells cpu displacedLoad
    let cpu' : Cpu :=
      { cpu with regs := { cpu.regs with pc := 0x10, iy := ⟨0xFF, 0xFF⟩ } }
    let set := instruction Bus.cells cpu' displacedSet
    (Selects 0xDD .ix ∧ Bus.cells.RamAt id displacedLoad
      ∧ displacedLoad cpu.regs.pc = 0xDD)
      ∧ loaded.1.1 = 19
      ∧ loaded.1.2.regs.hl = ⟨0x5A, 0x34⟩
      ∧ loaded.1.2.regs.ix = ⟨0x40, 0x00⟩
      ∧ loaded.1.2.regs.wz = 0x3FFF
      ∧ (Selects 0xFD .iy ∧ Bus.cells.RamAt id displacedSet
        ∧ displacedSet cpu'.regs.pc = 0xFD)
      ∧ set.1.1 = 23
      ∧ set.2 0 = 0x5B
      ∧ set.1.2.regs.bc = ⟨0x5B, 0x00⟩
      ∧ set.1.2.regs.r = 2 := by
  intro cpu loaded cpu' set
  have hload : displacedLoad cpu.regs.pc = 0xDD := by decide
  have hset : displacedSet cpu'.regs.pc = 0xFD := by decide
  obtain ⟨-, hplain, -⟩ :=
    displaced_as_plain .ix (ramAt_cells displacedLoad) hload
  obtain ⟨hloaded, -, -, -, hindex⟩ := hplain (by decide)
  obtain ⟨-, -, hbits, -⟩ :=
    displaced_as_plain .iy (ramAt_cells displacedSet) hset
  obtain ⟨hcopied, -⟩ := hbits (by decide)
  have hloaded' : loaded = _ := hloaded
  have hset' : set = _ := hcopied
  have hfirst : loaded.1.1 = 19 ∧ loaded.1.2.regs.hl = ⟨0x5A, 0x34⟩
      ∧ loaded.1.2.regs.wz = 0x3FFF := by
    rw [hloaded']
    decide
  have hsecond : set.1.1 = 23 ∧ set.2 0 = 0x5B ∧ set.1.2.regs.bc = ⟨0x5B, 0x00⟩
      ∧ set.1.2.regs.r = 2 := by
    rw [hset']
    decide
  exact ⟨⟨.ix, ramAt_cells _, hload⟩, hfirst.1, hfirst.2.1, hindex .ix nofun,
    hfirst.2.2,
    ⟨.iy, ramAt_cells _, hset⟩, hsecond⟩

end ConsoleBoard.Z80
