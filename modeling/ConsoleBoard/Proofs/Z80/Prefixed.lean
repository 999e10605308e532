/-
DD and FD are read as "IX, or IY, for HL".

The page behind a prefix is the plain page with another pointer in the
operands (`ofOpcode_swap`). An operand that is a register is reached by its
name alone, so running the page is running the plain one on a core whose HL
and index register are exchanged (`mirrors_execute`), which costs the same
(`cost_swap`), and the prefix adds its own four T-states. Three kinds of
opcode are not read this way: those that lead to another page, those with an
operand in memory, which moves a displacement away from the pointer, and
EX DE,HL and EXX, which name HL itself and run as without a prefix.

# Opcode by opcode

That the two pages correspond is checked quarter by quarter, on the three
fields of an opcode (`ofFirst_swap`, `ofLast_swap`, `loadOfCodes_swap`). For
each opcode one question is then open: on which core the plain one is to run
(`Cpu.shownTo`). It is the exchanged core where the operands name the pointer,
and the core itself for the two instructions that name HL.
-/
import ConsoleBoard.Memory.Flat
import ConsoleBoard.Proofs.Z80.Chain
import ConsoleBoard.Proofs.Z80.Swap

namespace ConsoleBoard.Z80

open Micro

variable {σ : Type}

-- ================================================================= opcodes

/-- The opcodes that lead to another page. -/
def pageOpcodes : List UInt8 := [0xCB, 0xDD, 0xED, 0xFD]

/-- The opcodes that name HL itself: EX DE,HL and EXX. -/
def namesHl (op : UInt8) : Bool := op = 0xEB || op = 0xD9

/-- The opcode has an operand in memory behind HL: INC, DEC and LD of an
immediate byte, the loads between (HL) and a register, and the ALU forms. -/
def hasMemoryOperand (op : UInt8) : Bool :=
  let (row, column) := ((row op).val, (column op).val)
  match quarter op with
  | 0 => row = 6 && (column = 4 || column = 5 || column = 6)
  | 1 => (row = 6) != (column = 6)
  | 2 => column = 6
  | 3 => false

-- ================================================================ decoding

/-- The registers of a prefixed page are those of the plain one, exchanged. -/
private theorem ofCode?_swap (x : Index) (code : Fin 8) :
    ByteReg.ofCode? x code = (ByteReg.ofCode? .hl code).map (·.swap x) := by
  unfold ByteReg.ofCode?
  split <;> rfl

/-- Only the code of the memory operand names no register. -/
theorem ofCode?_eq_none_iff (x : Index) (code : Fin 8) :
    ByteReg.ofCode? x code = none ↔ code = 6 := by
  unfold ByteReg.ofCode?
  split <;> simp

/-- The operands of a prefixed page are those of the plain one, exchanged. -/
private theorem ofCode_swap (x : Index) (code : Fin 8) :
    Operand.ofCode x code = (Operand.ofCode .hl code).swap x := by
  unfold Operand.ofCode
  rw [ofCode?_swap]
  cases ByteReg.ofCode? .hl code <;> rfl

/-- The first quarter of a prefixed page is that of the plain one, exchanged. -/
private theorem ofFirst_swap (x : Index) (row column : Fin 8) :
    Instruction.ofFirst x row column
      = (Instruction.ofFirst .hl row column).swap x := by
  unfold Instruction.ofFirst
  split <;> try rfl
  -- INC, DEC and LD of an immediate byte take any operand
  all_goals exact congrArg _ (ofCode_swap x row)

/-- The last quarter of a prefixed page is that of the plain one, exchanged. -/
private theorem ofLast_swap (x : Index) (row column : Fin 8) :
    Instruction.ofLast x row column
      = (Instruction.ofLast .hl row column).swap x := by
  unfold Instruction.ofLast
  split <;> rfl

/-- Loads between registers, and HALT in the place of LD (HL),(HL). -/
theorem loadOfCodes_swap (x : Index) {dst src : Fin 8} (h : dst = 6 ↔ src = 6) :
    Instruction.loadOfCodes x dst src
      = (Instruction.loadOfCodes .hl dst src).swap x := by
  rw [← ofCode?_eq_none_iff .hl, ← ofCode?_eq_none_iff .hl] at h
  unfold Instruction.loadOfCodes
  rw [ofCode?_swap x dst, ofCode?_swap x src]
  cases hdst : ByteReg.ofCode? .hl dst with
  | none =>
      rw [h.1 hdst]
      rfl
  | some dstReg =>
      cases hsrc : ByteReg.ofCode? .hl src with
      | none => exact absurd (h.2 hsrc) (by rw [hdst]; nofun)
      | some srcReg => rfl

/-- Without an operand in memory, an opcode names under a prefix what it names
on the plain page, with the pointer exchanged. -/
theorem ofOpcode_swap (x : Index) {op : UInt8}
    (h : hasMemoryOperand op = false) :
    Instruction.ofOpcode x op = (Instruction.ofOpcode .hl op).swap x := by
  unfold hasMemoryOperand at h
  unfold Instruction.ofOpcode
  generalize quarter op = page at h ⊢
  obtain rfl | rfl | rfl | rfl : page = 0 ∨ page = 1 ∨ page = 2
    ∨ page = 3 := by omega
  · exact ofFirst_swap x _ _
  · have hboth : (row op).val = 6 ↔ (column op).val = 6 := by simpa using h
    refine loadOfCodes_swap x ?_
    rw [Fin.ext_iff, Fin.ext_iff]
    exact hboth
  · exact congrArg _ (ofCode_swap x _)
  · exact ofLast_swap x _ _

/-- Without a memory operand, and without HL by its own name, an opcode
reaches HL by its operands alone. -/
private theorem direct_ofOpcode {op : UInt8}
    (hmemory : hasMemoryOperand op = false) (hnames : namesHl op = false) :
    (Instruction.ofOpcode .hl op).direct = true := by
  have hall : ∀ n : Fin 256, hasMemoryOperand (.ofFin n) = false →
      namesHl (.ofFin n) = false →
      (Instruction.ofOpcode .hl (.ofFin n)).direct = true := by decide +kernel
  exact hall op.toFin hmemory hnames

/-- An instruction that names HL itself has no other pointer. -/
theorem ofOpcode_of_namesHl (x : Index) {op : UInt8} (h : namesHl op = true) :
    Instruction.ofOpcode x op = Instruction.ofOpcode .hl op := by
  simp only [namesHl, Bool.or_eq_true, decide_eq_true_eq] at h
  rcases h with rfl | rfl <;> rfl

private theorem operandCost_swap {o : Operand} (ho : o.isReg = true) (x : Index)
    (register plain indexed : Nat) :
    Instruction.operandCost register plain indexed (o.swap x)
      = Instruction.operandCost register plain indexed o := by
  cases o with
  | reg r => rfl
  | memory y => cases ho

/-- The name of a register makes no difference to the cost. -/
theorem cost_swap {i : Instruction} (h : i.direct = true) (x : Index) :
    (i.swap x).cost = i.cost := by
  cases i
  case load dst src =>
    obtain ⟨hdst, hsrc⟩ := Bool.and_eq_true_iff.1 h
    cases dst with
    | reg r => exact operandCost_swap hsrc x _ _ _
    | memory y => cases hdst
  case loadImmediate o | alu op o | increment o | decrement o =>
    exact operandCost_swap h x _ _ _
  all_goals rfl

-- ================================================================ one step

/-- The prefix byte of an index register. -/
inductive Selects : UInt8 → Index → Prop
  | ix : Selects 0xDD .ix
  | iy : Selects 0xFD .iy

/-- A prefix is dispatched to its pointer. -/
theorem Selects.dispatch_eq {b : UInt8} {x : Index} (h : Selects b x) :
    (dispatch b : Micro σ Nat) = indexed x := by
  cases h <;> rfl

/-- No prefix selects HL. -/
theorem Selects.ne_hl {b : UInt8} {x : Index} (h : Selects b x) : x ≠ .hl := by
  cases h <;> nofun

/-- The core that a prefix shows to the opcode behind it: HL and the index
register are exchanged, but not for an opcode that names HL itself. -/
def Cpu.shownTo (cpu : Cpu) (op : UInt8) (x : Index) : Cpu :=
  if namesHl op then cpu else cpu.swap x

private theorem pc_shownTo (cpu : Cpu) (op : UInt8) (x : Index) :
    (cpu.shownTo op x).regs.pc = cpu.regs.pc := by
  unfold Cpu.shownTo
  cases namesHl op with
  | true => rfl
  | false => exact cpu.regs.swap_pc x

/-- Exchanged or not, the core takes the same interrupts. -/
theorem acceptable_shownTo (cpu : Cpu) (op : UInt8) (x : Index) :
    (cpu.shownTo op x).acceptable = cpu.acceptable := by
  unfold Cpu.shownTo
  cases namesHl op <;> rfl

private theorem halted_shownTo (cpu : Cpu) (op : UInt8) (x : Index) :
    (cpu.shownTo op x).halted = cpu.halted := by
  unfold Cpu.shownTo
  cases namesHl op <;> rfl

private theorem shownTo_skipped (cpu : Cpu) (op : UInt8) (x : Index) (n : Nat) :
    (cpu.shownTo op x).unshadowed.skipped n
      = (cpu.unshadowed.skipped n).shownTo op x := by
  unfold Cpu.shownTo
  cases namesHl op with
  | true => rfl
  | false => cases x <;> rfl

/-- An opcode of the plain page, behind its own fetch. -/
theorem instruction_plain {bus : Bus σ} {cpu : Cpu} {host host' : σ}
    {op : UInt8} (hfetch : bus.fetch cpu.regs.pc host = (op, host'))
    (hpage : op ∉ pageOpcodes) :
    instruction bus cpu host
      = perform 0 (Instruction.ofOpcode .hl op) bus
        (cpu.unshadowed.skipped 1) host' := by
  have hfetch' : bus.fetch cpu.unshadowed.regs.pc host = (op, host') := hfetch
  show (fetchOpcode >>= dispatch) bus cpu.unshadowed host = _
  rw [fetchOpcode_bind hfetch']
  unfold dispatch
  split
  · exact absurd (by decide) hpage
  · exact absurd (by decide) hpage
  · exact absurd (by decide) hpage
  · exact absurd (by decide) hpage
  · rfl

/-- A byte that leads to another page, and what is run of the byte behind it. -/
theorem instruction_paged {bus : Bus σ} {cpu : Cpu} {host host' host'' : σ}
    {b op : UInt8} {next : UInt8 → Micro σ Nat}
    (hdispatch : dispatch b = fetchOpcode >>= next)
    (hfirst : bus.fetch cpu.regs.pc host = (b, host'))
    (hsecond : bus.fetch (cpu.regs.pc + 1) host' = (op, host'')) :
    instruction bus cpu host = next op bus
      (cpu.unshadowed.skipped 2) host'' := by
  have hfirst' : bus.fetch cpu.unshadowed.regs.pc host = (b, host') := hfirst
  have hsecond' : bus.fetch (cpu.unshadowed.skipped 1).regs.pc host'
      = (op, host'') := hsecond
  show (fetchOpcode >>= dispatch) bus cpu.unshadowed host = _
  rw [fetchOpcode_bind hfirst', hdispatch, fetchOpcode_bind hsecond',
    Cpu.skipped_skipped]

/-- The same opcode behind a prefix, and behind both fetches. -/
theorem instruction_prefixed {bus : Bus σ} {cpu : Cpu} {host host' host'' : σ}
    {b op : UInt8} {x : Index} (hselects : Selects b x)
    (hfirst : bus.fetch cpu.regs.pc host = (b, host'))
    (hsecond : bus.fetch (cpu.regs.pc + 1) host' = (op, host''))
    (hpage : op ∉ pageOpcodes) :
    instruction bus cpu host
      = perform pageCost (Instruction.ofOpcode x op) bus
        (cpu.unshadowed.skipped 2) host'' := by
  rw [instruction_paged hselects.dispatch_eq hfirst hsecond]
  split
  · exact absurd (by decide) hpage
  · exact absurd (by decide) hpage
  · exact absurd (by decide) hpage
  · exact absurd (by decide) hpage
  · rfl

/-- What an instruction takes, in its parts. -/
theorem perform_eq (lead : Nat) (i : Instruction) (bus : Bus σ) (cpu : Cpu)
    (host : σ) :
    perform lead i bus cpu host
      = ((lead + i.cost + (i.execute bus cpu host).1.1,
          (i.execute bus cpu host).1.2),
          (i.execute bus cpu host).2) := rfl

/-- Behind the fetches, the prefix adds its T-states to what the plain opcode
does on the core that it is shown. -/
theorem perform_shownTo (x : Index) {op : UInt8}
    (hmemory : hasMemoryOperand op = false) (bus : Bus σ) (cpu : Cpu)
    (host : σ) :
    let plain :=
      perform 0 (Instruction.ofOpcode .hl op) bus (cpu.shownTo op x) host
    perform pageCost (Instruction.ofOpcode x op) bus cpu host
      = ((plain.1.1 + 4, plain.1.2.shownTo op x), plain.2) := by
  have hcost : ∀ cost extra, pageCost + cost + extra
      = 0 + cost + extra + 4 := by
    unfold pageCost
    omega
  dsimp only
  rw [perform_eq, perform_eq]
  dsimp only
  rw [← hcost]
  cases hnames : namesHl op with
  | true =>
      have hshown : ∀ core : Cpu, core.shownTo op x = core :=
        fun core => if_pos hnames
      rw [hshown, hshown, ofOpcode_of_namesHl x hnames]
  | false =>
      have hshown : ∀ core : Cpu, core.shownTo op x = core.swap x := fun core =>
        if_neg (by rw [hnames]; decide)
      have hdirect := direct_ofOpcode hmemory hnames
      rw [hshown, hshown, ofOpcode_swap x hmemory, cost_swap hdirect,
        mirrors_execute hdirect bus cpu host]

-- ============================================================= the theorem

/-- A prefix is "IX, or IY, for HL". Let a prefix byte be at PC, and behind it
an opcode that leads to no other page and has no operand in memory. The
instruction is the plain one, run behind the prefix on the core with HL and
the index register exchanged, and exchanged back: it takes four T-states
more, its branch included, and leaves the same flags, WZ and host. EX DE,HL
and EXX are run without any exchange. This holds of a single step wherever
it runs an instruction. -/
theorem prefix_selects_pointer {b op : UInt8} {x : Index}
    (hselects : Selects b x) {bus : Bus σ} {cpu : Cpu} {host host' : σ}
    (hfirst : bus.fetch cpu.regs.pc host = (b, host'))
    (hsecond : (bus.fetch (cpu.regs.pc + 1) host').1 = op)
    (hpage : op ∉ pageOpcodes) (hmemory : hasMemoryOperand op = false) :
    let behind := (cpu.skipped 1).shownTo op x
    (let plain := instruction bus behind host'
     instruction bus cpu host
       = ((plain.1.1 + 4, plain.1.2.shownTo op x), plain.2))
    ∧ ∀ clock, cpu.acceptable = none → cpu.halted = false →
      let plain := stepOnce bus ⟨behind, clock⟩ host'
      stepOnce bus ⟨cpu, clock⟩ host
        = ((plain.1.1 + 4, ⟨plain.1.2.cpu.shownTo op x,
              plain.1.2.clock.charge 4⟩), plain.2) := by
  intro behind
  have hfetch : bus.fetch behind.regs.pc host'
      = (op, (bus.fetch (cpu.regs.pc + 1) host').2) := by
    rw [pc_shownTo, ← hsecond]
    rfl
  have hinstruction : instruction bus cpu host
      = (((instruction bus behind host').1.1 + 4,
          (instruction bus behind host').1.2.shownTo op x),
          (instruction bus behind host').2) := by
    have hmoved : (cpu.skipped 1).unshadowed.skipped 1
        = cpu.unshadowed.skipped 2 :=
      cpu.unshadowed.skipped_skipped 1 1
    -- both run the second byte; what differs is the pointer, and the exchange
    -- takes it across
    rw [instruction_plain hfetch hpage, shownTo_skipped, hmoved,
      instruction_prefixed hselects hfirst (Prod.ext hsecond rfl) hpage]
    exact perform_shownTo x hmemory bus _ _
  refine ⟨hinstruction, fun clock hnone hawake => ?_⟩
  have hone : step bus cpu host = instruction bus cpu host := by
    rw [step_eq, hnone, hawake]
    rfl
  have hplain : step bus behind host' = instruction bus behind host' := by
    have hnone' : behind.acceptable = none :=
      (acceptable_shownTo _ op x).trans hnone
    have hawake' : behind.halted = false := (halted_shownTo _ op x).trans hawake
    rw [step_eq, hnone', hawake']
    rfl
  rw [stepOnce_eq, stepOnce_eq]
  dsimp only
  rw [hone, hplain, hinstruction, charge_charge]

/-- RAM with `ADD IX,IX` in front. -/
def prefixedAdd : FlatMemory where
  bytes := #[0xDD, 0x29]

/-- `ADD IX,IX` doubles IX, leaves HL and takes 15 T-states, since `ADD HL,HL`
doubles HL and takes 11. -/
theorem prefix_selects_pointer_add :
    let bus : Bus FlatMemory :=
      .ofParts (FlatMemory.bus id fun change ram => change ram) .unconnected
        .unconnected
    let cpu : Cpu := { Cpu.powerOn with
      regs := { Registers.powerOn with
        ix := ⟨0x12, 0x34⟩, hl := ⟨0x56, 0x78⟩ } }
    let run := instruction bus cpu prefixedAdd
    Selects 0xDD .ix
      ∧ bus.fetch cpu.regs.pc prefixedAdd = (0xDD, prefixedAdd)
      ∧ (bus.fetch (cpu.regs.pc + 1) prefixedAdd).1 = 0x29
      ∧ 0x29 ∉ pageOpcodes ∧ hasMemoryOperand 0x29 = false
      ∧ run.1.1 = 15
      ∧ run.1.2.regs.ix = ⟨0x24, 0x68⟩
      ∧ run.1.2.regs.hl = ⟨0x56, 0x78⟩ := by
  intro bus cpu run
  have hfirst : bus.fetch cpu.regs.pc prefixedAdd = (0xDD, prefixedAdd) := rfl
  have hsecond : (bus.fetch (cpu.regs.pc + 1) prefixedAdd).1 = 0x29 := rfl
  obtain ⟨hrun, -⟩ :=
    prefix_selects_pointer .ix hfirst hsecond (by decide) (by decide)
  have hrun' : run = _ := hrun
  rw [hrun']
  exact ⟨.ix, hfirst, hsecond, by
      decide, by decide, by decide, by decide, by decide⟩

end ConsoleBoard.Z80
