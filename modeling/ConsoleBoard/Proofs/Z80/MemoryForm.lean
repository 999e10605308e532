/-
An opcode with an operand in memory does behind a prefix what it does plain.

Behind DD or FD it finds its byte a displacement away from the index register.
All that it then does is what the plain opcode does on a bus that takes the
address of HL for this one (`Bus.redirected`): both come down to one effect on
a found byte (`MemoryForm.effect`), which looks at nothing else that the two
cores differ in (`effect_displaced`). H and L stay the real ones, as the
effect names them.

# The forms

`MemoryForm` has one constructor for each kind of opcode with a byte in memory:
loads from it and to it, arithmetic on it, counting it up and down. Every such
opcode has its form (`exists_memoryForm`), and on each page it runs as the form
on the byte that the page finds (`execute_plain`, `execute_indexed`).
-/
import ConsoleBoard.Memory.Flat
import ConsoleBoard.Proofs.Z80.Prefixed

namespace ConsoleBoard.Z80

open Micro

variable {σ : Type}

-- =============================================================== the buses

/-- The bus with the accesses of one address to another one. -/
def Bus.redirected (bus : Bus σ) (source target : UInt16) : Bus σ :=
  { bus with
    memory := .ofBytes
      (fun a => bus.memory.readByte (if a = source then target else a))
      fun a => bus.memory.writeByte (if a = source then target else a) }

/-- The bus with other code from an address on. -/
def Bus.feeding (bus : Bus σ) (start : UInt16) (code : List UInt8) : Bus σ :=
  { bus with
    fetch := fun a host =>
      match code[(a - start).toNat]? with
      | some v => (v, host)
      | none => bus.fetch a host }

/-- A fetch gives the fed byte of its place. -/
theorem fetch_feeding {bus : Bus σ} {start : UInt16} {code : List UInt8}
    {i : Nat} {v : UInt8} (hi : i < 65536) (h : code[i]? = some v) (host : σ) :
    (bus.feeding start code).fetch (start + UInt16.ofNat i) host
      = (v, host) := by
  have hindex : (start + UInt16.ofNat i - start).toNat = i := by
    rw [UInt16.add_comm, UInt16.add_sub_cancel, UInt16.toNat_ofNat',
      Nat.mod_eq_of_lt hi]
  show (match code[(start + UInt16.ofNat i - start).toNat]? with
    | some v => (v, host)
    | none => bus.fetch _ host) = _
  rw [hindex, h]

/-- The first fetch gives the first fed byte. -/
theorem fetch_feeding_start (bus : Bus σ) (start : UInt16) (v : UInt8)
    (rest : List UInt8) (host : σ) :
    (bus.feeding start (v :: rest)).fetch start host = (v, host) := by
  have hfirst : (bus.feeding start (v :: rest)).fetch
      (start + UInt16.ofNat 0) host = (v, host) :=
    fetch_feeding (by decide) rfl host
  rwa [show UInt16.ofNat 0 = 0 from rfl, UInt16.add_zero] at hfirst

/-- The host is RAM, as flat memory of full size is (`ramAt_flat`): code and
data are read from the same bytes, which stay as they are, and what is written
is there afterwards, and changes no other byte. -/
structure Bus.RamAt (bus : Bus σ) (peek : σ → UInt16 → UInt8)
    (host : σ) : Prop where
  fetch : ∀ a, bus.fetch a host = (peek host a, host)
  read : ∀ a, bus.memory.readByte a host = (peek host a, host)
  write : ∀ a v a', peek (bus.memory.writeByte a v host).2 a'
      = if a' = a then v else peek host a'

/-- A redirected read reads the target. -/
private theorem readByte_redirected (bus : Bus σ) (source target : UInt16) :
    (bus.redirected source target).memory.readByte source
      = bus.memory.readByte target :=
  congrArg bus.memory.readByte (if_pos rfl)

/-- A redirected write writes the target. -/
private theorem writeByte_redirected (bus : Bus σ) (source target : UInt16) :
    (bus.redirected source target).memory.writeByte source
      = bus.memory.writeByte target :=
  congrArg bus.memory.writeByte (if_pos rfl)

/-- A byte written to memory is read back there, and no other byte changes. -/
theorem readByte_writeByte {m : FlatMemory} (hfree : m.hold = .free)
    (hsize : m.bytes.size = FlatMemory.addressSpace) (a a' : UInt16)
    (v : UInt8) :
    (m.writeByte a v).readByte a' = if a' = a then v else m.readByte a' := by
  have ha : a.toNat < m.bytes.size := hsize ▸ a.toNat_lt
  rw [FlatMemory.readByte_writeByte hfree]
  exact if_congr (and_iff_left ha) rfl rfl

/-- Flat RAM of full size that nobody holds is RAM. -/
theorem ramAt_flat {view : σ → FlatMemory}
    {update : (FlatMemory → FlatMemory) → σ → σ}
    (hupdate : ∀ change host, view (update change host) = change (view host))
    {host : σ} (hfree : (view host).hold = .free)
    (hsize : (view host).bytes.size = FlatMemory.addressSpace)
    (ports : PortBus σ) (interrupts : InterruptBus σ) :
    (Bus.ofParts (FlatMemory.bus view update) ports interrupts).RamAt
      (fun host => (view host).readByte) host where
  fetch _ := rfl
  read _ := rfl
  write a v a' := by
    show (view (update (·.writeByte a v) host)).readByte a' = _
    rw [hupdate, readByte_writeByte hfree hsize]

-- =============================================================== registers

namespace Registers

/-- A register that is set has the byte, and every other one what it had. -/
theorem get_set (regs : Registers) (v : UInt8) (r s : ByteReg) :
    (regs.set v r).get s = if s = r then v else regs.get s := by
  cases r with
  | a | b | c | d | e =>
      cases s with
      | a | b | c | d | e => rfl
      | high z | low z => cases z <;> rfl
  | high y | low y =>
      cases s with
      | a | b | c | d | e => cases y <;> rfl
      | high z | low z => cases y <;> cases z <;> rfl

/-- A pair is its two halves. -/
theorem index_of_get {regs regs' : Registers} {y : Index}
    (hhigh : regs.get (.high y) = regs'.get (.high y))
    (hlow : regs.get (.low y) = regs'.get (.low y)) :
    regs.index y = regs'.index y := by
  have hhalves : ∀ now : Registers, now.index y
      = ⟨now.get (.high y), now.get (.low y)⟩ :=
    fun _ => rfl
  rw [hhalves, hhalves, hhigh, hlow]

end Registers

-- ========================================================= the plain forms

/-- The register that an opcode loads from the byte behind its pointer. Behind
a prefix too it is the real H or L. -/
def loadedRegister (op : UInt8) : Option ByteReg :=
  match quarter op, column op with
  | 1, 6 => ByteReg.ofCode? .hl (row op)
  | _, _ => none

/-- No half of an index register is loaded. -/
theorem loadedRegister_ne {op : UInt8} {y : Index} (hy : y ≠ .hl) :
    loadedRegister op ≠ some (.high y) ∧ loadedRegister op ≠ some (.low y) := by
  have hall : ∀ code, ByteReg.ofCode? .hl code ≠ some (.high y)
      ∧ ByteReg.ofCode? .hl code ≠ some (.low y) := by
    intro code
    cases y with
    | hl => exact absurd rfl hy
    | ix | iy => revert code; decide
  unfold loadedRegister
  split
  · exact hall (row op)
  · exact ⟨nofun, nofun⟩

/-- What an opcode with an operand in memory does with it. -/
inductive MemoryForm
  | increment | decrement | loadImmediate
  | load (r : ByteReg)
  | store (r : ByteReg)
  | alu (op : Alu.Op)

namespace MemoryForm

/-- The instruction with the operand behind `x`. -/
def on (x : Index) : MemoryForm → Instruction
  | increment => .increment (.memory x)
  | decrement => .decrement (.memory x)
  | loadImmediate => .loadImmediate (.memory x)
  | load r => .load (.reg r) (.memory x)
  | store r => .load (.memory x) (.reg r)
  | alu op => .alu op (.memory x)

/-- The register that is loaded. -/
def loaded : MemoryForm → Option ByteReg
  | load r => some r
  | _ => none

/-- What it does with the byte, given the ways to read and to write it. -/
def effect (readByte : StateM σ UInt8) (writeByte : UInt8 → StateM σ Unit) :
    MemoryForm → Micro σ Unit
  | increment => do
    let v ← readByte
    let (result, f) := Alu.increment8 v (← regs).f
    setFlags f
    writeByte result
  | decrement => do
    let v ← readByte
    let (result, f) := Alu.decrement8 v (← regs).f
    setFlags f
    writeByte result
  | loadImmediate => do writeByte (← fetch8)
  | load r => do
    let v ← readByte
    modifyRegs (·.set v r)
  | store r => do writeByte ((← regs).get r)
  | alu op => do
    let v ← readByte
    modifyRegs fun now =>
      let (a, f) := Alu.apply op now.a v now.f.c
      { now with a, f }

end MemoryForm

/-- What an opcode with an operand in memory does is the same behind every
pointer. -/
theorem exists_memoryForm {op : UInt8} (h : hasMemoryOperand op = true) :
    ∃ form : MemoryForm, (∀ x, Instruction.ofOpcode x op = form.on x)
      ∧ form.loaded = loadedRegister op := by
  unfold hasMemoryOperand at h
  unfold Instruction.ofOpcode loadedRegister
  generalize quarter op = page, row op = row, column op = column at h ⊢
  -- the opcode is in one of four quarters, and each has its own shape of
  -- operand
  obtain rfl | rfl | rfl | rfl : page = 0 ∨ page = 1 ∨ page = 2
    ∨ page = 3 := by omega
  · simp only [Bool.and_eq_true, Bool.or_eq_true, decide_eq_true_eq] at h
    obtain ⟨hrow, hcolumn⟩ := h
    obtain rfl : row = 6 := Fin.ext hrow
    rcases hcolumn with (hcolumn | hcolumn) | hcolumn
    · obtain rfl : column = 4 := Fin.ext hcolumn
      exact ⟨.increment, fun _ => rfl, rfl⟩
    · obtain rfl : column = 5 := Fin.ext hcolumn
      exact ⟨.decrement, fun _ => rfl, rfl⟩
    · obtain rfl : column = 6 := Fin.ext hcolumn
      exact ⟨.loadImmediate, fun _ => rfl, rfl⟩
  · -- LD: just one side is the byte in memory, for both would be HALT
    have hone : row = 6 ∧ column ≠ 6 ∨ row ≠ 6 ∧ column = 6 := by
      simp only [bne_iff_ne, ne_eq, decide_eq_decide, Fin.ext_iff] at h ⊢
      omega
    rcases hone with ⟨rfl, hcolumn⟩ | ⟨hrow, rfl⟩
    · obtain ⟨r, hr⟩ := Option.ne_none_iff_exists'.1
        (mt (ofCode?_eq_none_iff .hl column).1 hcolumn)
      refine ⟨.store r, fun x => ?_, ?_⟩
      · obtain ⟨s, hs⟩ :=
          Option.ne_none_iff_exists'.1
            (mt (ofCode?_eq_none_iff x column).1 hcolumn)
        show Instruction.loadOfCodes x 6 column = .load (.memory x) (.reg r)
        unfold Instruction.loadOfCodes
        rw [hs, Operand.ofCode, hr]
        rfl
      · split
        · exact absurd rfl hcolumn
        · rfl
    · obtain ⟨r, hr⟩ :=
        Option.ne_none_iff_exists'.1 (mt (ofCode?_eq_none_iff .hl row).1 hrow)
      refine ⟨.load r, fun x => ?_, hr.symm⟩
      obtain ⟨s, hs⟩ :=
        Option.ne_none_iff_exists'.1 (mt (ofCode?_eq_none_iff x row).1 hrow)
      show Instruction.loadOfCodes x row 6 = .load (.reg r) (.memory x)
      unfold Instruction.loadOfCodes
      rw [hs]
      show Instruction.load (Operand.ofCode .hl row) (.memory x) = _
      rw [Operand.ofCode, hr]
  · obtain rfl : column = 6 := Fin.ext (of_decide_eq_true h)
    exact ⟨.alu (Alu.Op.ofCode row), fun _ => rfl, rfl⟩
  · cases h

namespace MemoryForm

/-- Behind HL, the byte is at hand. -/
theorem execute_plain (form : MemoryForm) (bus : Bus σ) (cpu : Cpu) (host : σ) :
    let address := cpu.regs.hl.toWord
    let r := form.effect (bus.memory.readByte address)
      (bus.memory.writeByte address) bus cpu host
    (form.on .hl).execute bus cpu host = ((0, r.1.2), r.2) := by
  cases form <;> rfl

/-- Behind a prefix the displacement is fetched first, and WZ keeps the
address. -/
theorem execute_indexed (form : MemoryForm) {x : Index} (hx : x ≠ .hl)
    {bus : Bus σ} {cpu : Cpu} {host host' : σ} {d : UInt8}
    (hfetch : bus.fetch cpu.regs.pc host = (d, host')) :
    let address := (cpu.regs.index x).toWord + signExtend d
    let found := { cpu with
      regs := { cpu.regs with pc := cpu.regs.pc + 1, wz := address } }
    let r := form.effect (bus.memory.readByte address)
      (bus.memory.writeByte address) bus found host'
    (form.on x).execute bus cpu host = ((0, r.1.2), r.2) := by
  have hd : (bus.fetch cpu.regs.pc host).1 = d := congrArg Prod.fst hfetch
  have hhost : (bus.fetch cpu.regs.pc host).2 = host' :=
    congrArg Prod.snd hfetch
  rw [← hd, ← hhost]
  cases x with
  | hl => exact absurd rfl hx
  | ix | iy =>
      cases form with
      | store r =>
          -- the register is read before the displacement, which does not touch
          -- it
          cases r with
          | high y | low y => cases y <;> rfl
          | a | b | c | d | e => rfl
      | increment | decrement | loadImmediate | load r | alu op => rfl

end MemoryForm

-- ========================================================== two more bytes

/-- The core two more bytes and one more refresh cycle on, with an address in
WZ. -/
def Cpu.displaced (cpu : Cpu) (address : UInt16) : Cpu :=
  { cpu with regs := { cpu.regs with
      pc := cpu.regs.pc + 2
      r := Registers.refresh cpu.regs.r 1
      wz := address } }

namespace MemoryForm

/-- The effect looks at nothing but the byte, the operand behind it and
registers that the displacement does not touch. -/
theorem effect_displaced (form : MemoryForm) (readByte : StateM σ UInt8)
    (writeByte : UInt8 → StateM σ Unit) {bus plain : Bus σ} {cpu : Cpu}
    {host : σ} (hfetch : plain.fetch cpu.regs.pc host
      = bus.fetch (cpu.regs.pc + 2) host) (address : UInt16) :
    let p := form.effect readByte writeByte plain cpu host
    form.effect readByte writeByte bus (cpu.displaced address) host
      = (((), p.1.2.displaced address), p.2) := by
  cases form with
  -- the one form that fetches on: its byte is behind the displacement
  | loadImmediate =>
      have hpc : cpu.regs.pc + 2 + 1 = cpu.regs.pc + 1 + 2 := by
        rw [UInt16.add_assoc, UInt16.add_assoc, UInt16.add_comm 2 1]
      have hmoved : { cpu.displaced address with
          regs := { (cpu.displaced address).regs with
            pc := cpu.regs.pc + 2 + 1 } }
            = Cpu.displaced { cpu with
              regs := { cpu.regs with pc := cpu.regs.pc + 1 } }
              address := by
        rw [hpc]
        rfl
      show ((_, { cpu.displaced address with
          regs := { (cpu.displaced address).regs with
            pc := cpu.regs.pc + 2 + 1 } }),
        (writeByte (bus.fetch (cpu.regs.pc + 2) host).1
          (bus.fetch (cpu.regs.pc + 2) host).2).2) = _
      rw [← hfetch, hmoved]
      rfl
  | load r | store r =>
      cases r with
      | high y | low y => cases y <;> rfl
      | a | b | c | d | e => rfl
  | increment | decrement | alu op => rfl

/-- Beside A, no register changes but the one that is loaded. -/
theorem get_effect {form : MemoryForm} {r : ByteReg} (ha : r ≠ .a)
    (hloaded : form.loaded ≠ some r) (readByte : StateM σ UInt8)
    (writeByte : UInt8 → StateM σ Unit) (bus : Bus σ) (cpu : Cpu)
    (host : σ) :
    (form.effect readByte writeByte bus cpu host).1.2.regs.get r
      = cpu.regs.get r := by
  cases form with
  | load s =>
      have hne : r ≠ s := fun h => hloaded (congrArg some h.symm)
      exact (Registers.get_set _ _ _ _).trans (if_neg hne)
  | alu op =>
      cases r with
      | a => exact absurd rfl ha
      | b | c | d | e => rfl
      | high y | low y => cases y <;> rfl
  | increment | decrement | loadImmediate | store s =>
      cases r with
      | a | b | c | d | e => rfl
      | high y | low y => cases y <;> rfl

/-- The loaded register gets the byte. -/
theorem get_effect_loaded {form : MemoryForm} {r : ByteReg}
    (hloaded : form.loaded = some r) (readByte : StateM σ UInt8)
    (writeByte : UInt8 → StateM σ Unit) (bus : Bus σ) (cpu : Cpu)
    (host : σ) :
    (form.effect readByte writeByte bus cpu host).1.2.regs.get r
      = (readByte host).1 := by
  cases form with
  | load s =>
      cases hloaded
      exact (Registers.get_set _ _ _ _).trans (if_pos rfl)
  | increment | decrement | loadImmediate | store s | alu op => cases hloaded

/-- The effect writes its byte or nothing. -/
theorem host_effect (form : MemoryForm) {readByte : StateM σ UInt8}
    (writeByte : UInt8 → StateM σ Unit) {bus : Bus σ} {cpu : Cpu} {host : σ}
    (hread : (readByte host).2 = host)
    (hfetch : (bus.fetch cpu.regs.pc host).2 = host) :
    (form.effect readByte writeByte bus cpu host).2 = host
      ∨ ∃ v, (form.effect readByte writeByte bus cpu host).2
        = (writeByte v host).2 := by
  cases form with
  | load r | alu op => exact .inl hread
  | store r => exact .inr ⟨_, rfl⟩
  | loadImmediate =>
      exact .inr ⟨_, congrArg (fun h => (writeByte _ h).2) hfetch⟩
  | increment | decrement =>
      exact .inr ⟨_, congrArg (fun h => (writeByte _ h).2) hread⟩

end MemoryForm

/-- T-states that the displacement takes beside the prefix. -/
theorem cost_displaced {x : Index} (hx : x ≠ .hl) {op : UInt8}
    (h : hasMemoryOperand op = true) :
    pageCost + (Instruction.ofOpcode x op).cost
      = (Instruction.ofOpcode .hl op).cost + if op = 0x36 then 9 else 12 := by
  have hall : ∀ n : Fin 256, hasMemoryOperand (.ofFin n) = true →
      pageCost + (Instruction.ofOpcode .ix (.ofFin n)).cost
          = (Instruction.ofOpcode .hl (.ofFin n)).cost
            + (if UInt8.ofFin n = 0x36 then 9 else 12)
        ∧ (Instruction.ofOpcode .iy (.ofFin n)).cost
          = (Instruction.ofOpcode .ix (.ofFin n)).cost := by decide +kernel
  obtain ⟨hix, hiy⟩ := hall op.toFin h
  cases x with
  | hl => exact absurd rfl hx
  | ix => exact hix
  | iy => exact (congrArg (pageCost + ·) hiy).trans hix

-- ========================================================= behind a prefix

/-- Skipped bytes leave the pointers. -/
theorem index_skipped (cpu : Cpu) (n : Nat) (x : Index) :
    (cpu.unshadowed.skipped n).regs.index x = cpu.regs.index x := by
  cases x <;> rfl

/-- An opcode with a memory operand leads to no other page. -/
private theorem not_mem_pageOpcodes {op : UInt8}
    (h : hasMemoryOperand op = true) : op ∉ pageOpcodes := by
  intro hmem
  simp only [pageOpcodes, List.mem_cons, List.not_mem_nil, or_false] at hmem
  rcases hmem with rfl | rfl | rfl | rfl <;> exact absurd h (by decide)

/-- A displacement is signed, and the address wraps. -/
theorem toNat_add_signExtend (w : UInt16) (d : UInt8) :
    ((w + signExtend d).toNat : Int) = (w.toNat + d.toInt8.toInt) % 65536 := by
  have hall : ∀ n : Fin 256, ((signExtend (.ofFin n)).toNat : Int)
      = (UInt8.ofFin n).toInt8.toInt % 65536 := by decide +kernel
  have hd : ((signExtend d).toNat : Int) = d.toInt8.toInt % 65536 :=
    hall d.toFin
  rw [UInt16.toNat_add]
  omega

/-- The core behind a prefix, its opcode and a displacement is the one behind
the plain opcode, displaced. -/
theorem displaced_skipped (cpu : Cpu) (address : UInt16) :
    { cpu.skipped 2 with regs := { (cpu.skipped 2).regs with
        pc := (cpu.skipped 2).regs.pc + 1, wz := address } }
      = (cpu.skipped 1).displaced address := by
  have hpc : cpu.regs.pc + UInt16.ofNat 2 + 1
      = cpu.regs.pc + UInt16.ofNat 1 + 2 := by
    rw [UInt16.add_assoc, UInt16.add_assoc]
    rfl
  have hr : Registers.refresh cpu.regs.r 2
      = Registers.refresh (Registers.refresh cpu.regs.r 1) 1 :=
    (refresh_refresh cpu.regs.r 1 1).symm
  unfold Cpu.displaced Cpu.skipped
  dsimp only
  rw [hpc, hr]

/-- The plain opcode, fed to a core whose (HL) is redirected. -/
theorem instruction_redirected {form : MemoryForm} {op : UInt8}
    (hpage : op ∉ pageOpcodes)
    (hform : Instruction.ofOpcode .hl op = form.on .hl) (bus : Bus σ)
    (cpu : Cpu) (host : σ) (address : UInt16) (rest : List UInt8) :
    let plainBus := (bus.redirected cpu.regs.hl.toWord address).feeding
      cpu.regs.pc (op :: rest)
    let effect :=
      form.effect (bus.memory.readByte address) (bus.memory.writeByte address)
        plainBus (cpu.unshadowed.skipped 1) host
    instruction plainBus cpu host
      = (((Instruction.ofOpcode .hl op).cost, effect.1.2), effect.2) := by
  intro plainBus effect
  have hcode : plainBus.fetch cpu.regs.pc host = (op, host) :=
    fetch_feeding_start _ _ _ _ _
  have heffect : form.effect (plainBus.memory.readByte cpu.regs.hl.toWord)
      (plainBus.memory.writeByte cpu.regs.hl.toWord) plainBus
        (cpu.unshadowed.skipped 1) host
        = effect := by
    show form.effect
      ((bus.redirected cpu.regs.hl.toWord address).memory.readByte _)
      ((bus.redirected cpu.regs.hl.toWord address).memory.writeByte _) _ _ _ = _
    rw [readByte_redirected, writeByte_redirected]
  rw [instruction_plain hcode hpage, perform_eq, hform, form.execute_plain]
  show ((0 + _ + 0, (form.effect (plainBus.memory.readByte cpu.regs.hl.toWord)
    (plainBus.memory.writeByte cpu.regs.hl.toWord) plainBus _ host).1.2), _) = _
  rw [Nat.zero_add]
  exact congrArg
    (fun e : (Unit × Cpu) × σ => (((form.on .hl).cost, e.1.2), e.2)) heffect

section

variable {b : UInt8} {x : Index} {bus : Bus σ} {peek : σ → UInt16 → UInt8}
  {cpu : Cpu} {host : σ}

/-- A form with an operand in memory, behind its prefix. -/
theorem instruction_indexed {form : MemoryForm} (hselects : Selects b x)
    (hram : bus.RamAt peek host) (hstart : peek host cpu.regs.pc = b)
    (hpage : peek host (cpu.regs.pc + 1) ∉ pageOpcodes)
    (hform : Instruction.ofOpcode x (peek host (cpu.regs.pc + 1)) = form.on x) :
    let address :=
      (cpu.regs.index x).toWord + signExtend (peek host (cpu.regs.pc + 2))
    let effect :=
      form.effect (bus.memory.readByte address) (bus.memory.writeByte address)
        bus ((cpu.unshadowed.skipped 1).displaced address) host
    instruction bus cpu host
      = ((pageCost + (Instruction.ofOpcode x
            (peek host (cpu.regs.pc + 1))).cost, effect.1.2),
          effect.2) := by
  intro address effect
  have hfirst : bus.fetch cpu.regs.pc host = (b, host) := hstart ▸ hram.fetch _
  have hdisplacement : bus.fetch (cpu.unshadowed.skipped 2).regs.pc host
      = (peek host (cpu.regs.pc + 2), host) := hram.fetch _
  rw [instruction_prefixed hselects hfirst (hram.fetch _) hpage,
    perform_eq, hform, form.execute_indexed hselects.ne_hl hdisplacement,
    index_skipped, displaced_skipped]
  rfl

/-- A form with an operand in memory does behind a prefix what the plain one
does with its (HL) redirected. -/
theorem instruction_displaced (hselects : Selects b x)
    (hram : bus.RamAt peek host) (hstart : peek host cpu.regs.pc = b)
    (hmemory : hasMemoryOperand (peek host (cpu.regs.pc + 1)) = true) :
    let op := peek host (cpu.regs.pc + 1)
    let address :=
      (cpu.regs.index x).toWord + signExtend (peek host (cpu.regs.pc + 2))
    let run := instruction bus cpu host
    let plain := instruction
      ((bus.redirected cpu.regs.hl.toWord address).feeding cpu.regs.pc
        [op, peek host (cpu.regs.pc + 3)]) cpu host
    run = ((plain.1.1 + (if op = 0x36 then 9 else 12),
        plain.1.2.displaced address), plain.2)
      ∧ (∀ a, a ≠ address → peek run.2 a = peek host a)
      ∧ (∀ r, loadedRegister op = some r →
        run.1.2.regs.get r = peek host address)
      ∧ ∀ r, r ≠ .a → loadedRegister op ≠ some r →
        run.1.2.regs.get r = cpu.regs.get r := by
  intro op address run plain
  have hpage : op ∉ pageOpcodes := not_mem_pageOpcodes hmemory
  obtain ⟨form, hform, hloaded⟩ := exists_memoryForm hmemory
  have hrun : run = _ :=
    instruction_indexed hselects hram hstart hpage (hform x)
  have hplain : plain = _ :=
    instruction_redirected hpage (hform .hl) bus cpu host address
      [peek host (cpu.regs.pc + 3)]
  refine ⟨?_, fun a ha => ?_, fun r hr => ?_, fun r ha hr => ?_⟩
  · -- the operand of the plain opcode is fed from behind the displacement
    have hoperand :
        ((bus.redirected cpu.regs.hl.toWord address).feeding cpu.regs.pc
            [op, peek host (cpu.regs.pc + 3)]).fetch
          (cpu.unshadowed.skipped 1).regs.pc host
          = bus.fetch ((cpu.unshadowed.skipped 1).regs.pc + 2) host := by
      have hpc : (cpu.unshadowed.skipped 1).regs.pc + 2 = cpu.regs.pc + 3 :=
        UInt16.add_assoc _ _ _
      rw [hpc, hram.fetch]
      exact fetch_feeding (by decide) rfl host
    rw [hrun, hplain, form.effect_displaced _ _ hoperand,
      cost_displaced hselects.ne_hl hmemory]
  · have hread : (bus.memory.readByte address host).2 = host :=
      congrArg Prod.snd (hram.read _)
    have hfetch : (bus.fetch
        ((cpu.unshadowed.skipped 1).displaced address).regs.pc host).2
        = host := congrArg Prod.snd (hram.fetch _)
    rw [hrun]
    -- a form writes nothing, or one byte at the address
    rcases form.host_effect (bus.memory.writeByte address) hread hfetch with
      hsame | ⟨v, hwritten⟩
    · exact congrArg (peek · a) hsame
    · exact (congrArg (peek · a) hwritten).trans
        ((hram.write address v a).trans (if_neg ha))
  · rw [hrun]
    exact (MemoryForm.get_effect_loaded (hloaded.trans hr) _ _ _ _ _).trans
      (congrArg Prod.fst (hram.read _))
  · have hkept : ((cpu.unshadowed.skipped 1).displaced address).regs.get r
        = cpu.regs.get r := by
      cases r with
      | a | b | c | d | e => rfl
      | high y | low y => cases y <;> rfl
    rw [hrun]
    exact (MemoryForm.get_effect ha (hloaded ▸ hr) _ _ _ _ _).trans hkept

end

end ConsoleBoard.Z80
