/-
What an instruction may write.

Most of the core is out of reach of most instructions, and which parts one
reaches is read off its syntax (`Instruction.writes`): the shadow registers,
I, R and SP belong to a few instructions each, an index register to those that
have it for their destination, and the state beside the registers to five
(`Instruction.controls`). So one equation says what an instruction leaves alone
(`frame_execute`): seen through `Cpu.frame`, which blanks what it may write, the
core afterwards is the one before it with the control state that it names. The
general registers, PC and WZ are blanked always, since nearly everything writes
one of them.

An operand is found before it is written, and a found one has at most the names
of the one in the code. That is all that is to be known between the two
(`Keeps.resolve_bind`). The instructions are gone through group by group.
-/
import ConsoleBoard.Proofs.Z80.Group
import ConsoleBoard.Proofs.Z80.Step

namespace ConsoleBoard.Z80

open Micro

variable {σ : Type}

-- =============================================================== the parts

/-- The registers that few instructions write. -/
inductive Part
  | shadowAf | shadows | ix | iy | sp | i | r
deriving DecidableEq

/-- The register is a half of the pointer `x`. -/
def ByteReg.names : ByteReg → Index → Bool
  | high y, x | low y, x => y = x
  | _, _ => false

def WordReg.names : WordReg → Index → Bool
  | pointer y, x => y = x
  | _, _ => false

def StackReg.names : StackReg → Index → Bool
  | pointer y, x => y = x
  | _, _ => false

/-- The operand is a half of the pointer `x`. A byte in memory is none. -/
def Operand.names : Operand → Index → Bool
  | reg r, x => r.names x
  | memory _, _ => false

def Target.names : Target → Index → Bool
  | reg r, x => r.names x
  | cell _, _ => false

namespace Instruction

/-- The instruction has the pointer `x`, or a half of it, for its
destination. -/
def movesPointer (i : Instruction) (x : Index) : Bool :=
  match i with
  | load dst _ | loadImmediate dst | increment dst | decrement dst
  | bits _ dst => dst.names x
  | loadWordImmediate dst | loadWordAbsolute dst | incrementWord dst
  | decrementWord dst =>
    dst.names x
  | pop r => r.names x
  | exchangeTop y | addWord y _ => y = x
  | input (some r) => r.names x
  | _ => false

/-- The stack instructions and the loads of SP. -/
def movesSp : Instruction → Bool
  | push _ | pop _ | call | callIf _ | ret | retIf _ | retn | rst _ => true
  | loadSp _ | loadWordImmediate .sp | loadWordAbsolute .sp => true
  | incrementWord .sp | decrementWord .sp => true
  | _ => false

/-- The instruction may write the part. -/
def writes (i : Instruction) : Part → Bool
  | .shadowAf => (i matches exchangeAf)
  | .shadows => (i matches exchangeShadows)
  | .ix => i.movesPointer .ix
  | .iy => i.movesPointer .iy
  | .sp => i.movesSp
  | .i => (i matches storeI)
  | .r => (i matches storeR)

/-- The instruction changes registers and nothing else of the core. -/
def RegistersOnly : Instruction → Prop
  | .halt | .di | .ei | .im _ | .retn => False
  | _ => True

/-- What the instruction does to the core beside its registers. -/
def controls : Instruction → Cpu → Cpu
  | halt, cpu => { cpu with halted := true }
  | di, cpu => { cpu with iff1 := false, iff2 := false }
  | ei, cpu => { cpu with iff1 := true, iff2 := true, eiShadow := true }
  | im mode, cpu => { cpu with im := mode }
  | retn, cpu => { cpu with iff1 := cpu.iff2 }
  | _, cpu => cpu

end Instruction

-- =============================================================== the frame

/-- The registers without the general ones, PC and WZ, and without the parts
that `written` allows. -/
def Registers.outside (written : Part → Bool) (regs : Registers) : Registers :=
  { Registers.powerOn with
    a2 := if written .shadowAf then 0 else regs.a2
    f2 := if written .shadowAf then default else regs.f2
    bc2 := if written .shadows then default else regs.bc2
    de2 := if written .shadows then default else regs.de2
    hl2 := if written .shadows then default else regs.hl2
    ix := if written .ix then default else regs.ix
    iy := if written .iy then default else regs.iy
    sp := if written .sp then 0 else regs.sp
    i := if written .i then 0 else regs.i
    r := if written .r then 0 else regs.r }

/-- The core with what may be written blanked in its registers. -/
def Cpu.frame (written : Part → Bool) (cpu : Cpu) : Cpu :=
  { cpu with regs := cpu.regs.outside written }

/-- Every part that may not be written is the same in both. -/
structure Registers.Agree (written : Part → Bool)
    (regs regs' : Registers) : Prop where
  shadowAf : written .shadowAf = false → regs'.a2 = regs.a2 ∧ regs'.f2 = regs.f2
  shadows : written .shadows = false →
    regs'.bc2 = regs.bc2 ∧ regs'.de2 = regs.de2 ∧ regs'.hl2 = regs.hl2
  ix : written .ix = false → regs'.ix = regs.ix
  iy : written .iy = false → regs'.iy = regs.iy
  sp : written .sp = false → regs'.sp = regs.sp
  i : written .i = false → regs'.i = regs.i
  r : written .r = false → regs'.r = regs.r

/-- Registers with the same outside agree on every part. -/
theorem Registers.agree_of_outside {written : Part → Bool}
    {regs regs' : Registers}
    (h : regs'.outside written = regs.outside written) :
    Agree written regs regs' := by
  simp only [outside, mk.injEq] at h
  obtain ⟨-, -, -, -, -, ha2, hf2, hbc2, hde2, hhl2, hix, hiy, hsp, -, -,
    hi, hr⟩ := h
  constructor <;> intro hw <;> simp only [hw, Bool.false_eq_true, if_false] at *
  · exact ⟨ha2, hf2⟩
  · exact ⟨hbc2, hde2, hhl2⟩
  · exact hix
  · exact hiy
  · exact hsp
  · exact hi
  · exact hr

/-- Cores with the same frame differ in what may be written. -/
theorem Cpu.exists_of_frame {written : Part → Bool} {cpu cpu' : Cpu}
    (h : cpu'.frame written = cpu.frame written) :
    ∃ regs, cpu' = { cpu with regs := regs }
      ∧ Registers.Agree written cpu.regs regs := by
  refine ⟨cpu'.regs, ?_, Registers.agree_of_outside (congrArg Cpu.regs h)⟩
  cases cpu
  cases cpu'
  simp only [frame, mk.injEq, true_and] at h ⊢
  exact h.2

/-- The index registers among the names may be written. -/
structure Admits (written : Part → Bool) (names : Index → Bool) : Prop where
  ix : names .ix = true → written .ix = true
  iy : names .iy = true → written .iy = true

variable {written : Part → Bool}

namespace Registers

variable (regs : Registers)

private theorem outside_setIndex {x : Index} (h : Admits written fun y => x = y)
    (p : Pair) :
    (regs.setIndex x p).outside written = regs.outside written := by
  cases x with
  | hl => rfl
  | ix => simp [outside, setIndex, h.ix rfl]
  | iy => simp [outside, setIndex, h.iy rfl]

theorem outside_set {r : ByteReg} (h : Admits written r.names) (v : UInt8) :
    (regs.set v r).outside written = regs.outside written := by
  cases r with
  | high x => exact outside_setIndex regs ⟨h.ix, h.iy⟩ _
  | low x => exact outside_setIndex regs ⟨h.ix, h.iy⟩ _
  | _ => rfl

private theorem outside_putWord {r : WordReg} (h : Admits written r.names)
    (hsp : r = .sp → written .sp = true) (w : UInt16) :
    (regs.putWord w r).outside written = regs.outside written := by
  cases r with
  | sp => simp [outside, putWord, hsp rfl]
  | pointer x => exact outside_setIndex regs ⟨h.ix, h.iy⟩ _
  | _ => rfl

private theorem outside_putStacked {r : StackReg} (h : Admits written r.names)
    (w : UInt16) :
    (regs.putStacked w r).outside written = regs.outside written := by
  cases r with
  | pointer x => exact outside_setIndex regs ⟨h.ix, h.iy⟩ _
  | _ => rfl

end Registers

/-- What the frame shows is kept with it. -/
theorem Micro.Keeps.of_frame {α γ : Type} {m : Micro σ α} {f : Cpu → γ}
    (h : Keeps (Cpu.frame written) m)
    (hf : ∀ cpu, f (cpu.frame written) = f cpu) :
    Keeps f m := by
  intro bus cpu host
  rw [← hf, h bus cpu host, hf]

-- =========================================================== small actions

/-- A change of the registers keeps the frame if it keeps the outside. -/
private theorem keeps_modifyRegs {change : Registers → Registers}
    (h : ∀ regs, (change regs).outside written = regs.outside written) :
    Keeps (Cpu.frame written) (modifyRegs change : Micro σ Unit) := by
  intro bus cpu host
  show { cpu with regs := (change cpu.regs).outside written }
    = cpu.frame written
  rw [h]
  rfl

private theorem keeps_regs :
    Keeps (Cpu.frame written) (regs : Micro σ Registers) := fun _ _ _ => rfl

private theorem keeps_fetch8 :
    Keeps (Cpu.frame written) (fetch8 : Micro σ UInt8) := fun _ _ _ => rfl

private theorem keeps_fetch16 :
    Keeps (Cpu.frame written) (fetch16 : Micro σ UInt16) := fun _ _ _ => rfl

private theorem keeps_setFlags (f : Flags) :
    Keeps (Cpu.frame written) (setFlags f : Micro σ Unit) :=
  fun _ _ _ => rfl

private theorem keeps_indexedAddress (x : Index) :
    Keeps (Cpu.frame written) (indexedAddress x : Micro σ UInt16) :=
      fun _ _ _ => rfl

private theorem keeps_jumpBy (d : UInt8) :
    Keeps (Cpu.frame written) (jumpBy d : Micro σ Unit) :=
  fun _ _ _ => rfl

-- ================================================================ operands

private theorem keeps_resolve (o : Operand) :
    Keeps (Cpu.frame written) (o.resolve : Micro σ Target) := by
  cases o with
  | reg r => exact .pure _
  | memory x => cases x <;> exact fun _ _ _ => rfl

private theorem keeps_readTarget (t : Target) :
    Keeps (Cpu.frame written) (t.read : Micro σ UInt8) := by
  cases t <;> exact fun _ _ _ => rfl

private theorem keeps_readOperand (o : Operand) :
    Keeps (Cpu.frame written) (o.read : Micro σ UInt8) :=
  .bind (keeps_resolve o) keeps_readTarget

/-- A found operand that may be written leaves the frame. -/
private theorem keeps_writeTarget {t : Target} (h : Admits written t.names)
    (v : UInt8) :
    Keeps (Cpu.frame written) (t.write v : Micro σ Unit) := by
  cases t with
  | reg r => exact keeps_modifyRegs fun regs => regs.outside_set h v
  | cell address => exact fun _ _ _ => rfl

/-- What follows on a found operand may write it if the one in the code may be
written. -/
theorem Micro.Keeps.resolve_bind {α : Type} {o : Operand}
    {next : Target → Micro σ α} (ho : Admits written o.names)
    (h : ∀ t : Target, Admits written t.names →
      Keeps (Cpu.frame written) (next t)) :
    Keeps (Cpu.frame written) (o.resolve >>= next) := by
  cases o with
  | reg r => exact h (.reg r) ho
  | memory x =>
      have hcell : ∀ address, Keeps (Cpu.frame written)
          (next (.cell address)) :=
        fun address => h (.cell address) ⟨nofun, nofun⟩
      intro bus cpu host
      have hfound : Cpu.frame written
          ((Operand.memory x).resolve bus cpu host).1.2
          = cpu.frame written := keeps_resolve (.memory x) bus cpu host
      cases x with
      | hl => exact (hcell _ bus _ _).trans hfound
      | ix => exact (hcell _ bus _ _).trans hfound
      | iy => exact (hcell _ bus _ _).trans hfound

/-- A CB operation writes its operand and its copy. -/
private theorem keeps_applyBits (op : BitOp) {t : Target}
    {copy : Option ByteReg} (ht : Admits written t.names)
    (hcopy : ∀ r, copy = some r → Admits written r.names) :
    Keeps (Cpu.frame written) (op.apply t copy : Micro σ Unit) := by
  have hstore : ∀ v, Keeps (Cpu.frame written)
      (BitOp.apply.store t copy v : Micro σ Unit) := by
    intro v
    refine .bind (keeps_writeTarget ht v) fun _ => ?_
    cases copy with
    | none => exact .pure _
    | some r =>
        exact keeps_modifyRegs fun regs => regs.outside_set (hcopy r rfl) v
  refine .bind (keeps_readTarget t) fun v => .bind keeps_regs fun now => ?_
  cases op with
  | test n => exact keeps_setFlags _
  | shift s => exact .bind (keeps_setFlags _) fun _ => hstore _
  | reset n => exact hstore _
  | set n => exact hstore _

/-- The three bits of an opcode name no index register. -/
theorem admits_ofCode? {code : Fin 8} {r : ByteReg}
    (h : ByteReg.ofCode? .hl code = some r) :
    Admits written r.names := by
  unfold ByteReg.ofCode? at h
  split at h <;> cases h <;> exact ⟨nofun, nofun⟩

/-- The doubly prefixed page writes no index register. -/
theorem keeps_indexedBits (x : Index) :
    Keeps (Cpu.frame written) (indexedBits x : Micro σ Nat) :=
  .bind (keeps_indexedAddress x) fun _ => .bind keeps_fetch8 fun _ =>
    .bind (keeps_applyBits _ ⟨nofun, nofun⟩ fun _ => admits_ofCode?)
      fun _ => .pure _

-- ============================================================ instructions

-- What is left in a group behind the named cases names no register to write,
-- and its effect on the core computes.

private theorem keeps_bytes {i : Instruction} (hgroup : i.group = .bytes) :
    Keeps (Cpu.frame i.writes) (i.execute : Micro σ Nat) := by
  cases i
  case load dst src =>
    have hdst : Admits (Instruction.load dst src).writes dst.names := ⟨id, id⟩
    exact .bind (keeps_readOperand src) fun v => .resolve_bind hdst fun t ht =>
      .bind (keeps_writeTarget ht v) fun _ => .pure _
  case loadImmediate dst =>
    have hdst : Admits (Instruction.loadImmediate dst).writes
        dst.names := ⟨id, id⟩
    exact .resolve_bind hdst fun t ht => .bind keeps_fetch8 fun v =>
      .bind (keeps_writeTarget ht v) fun _ => .pure _
  case alu op src =>
    exact .bind (keeps_readOperand src) fun v =>
      .bind (fun _ _ _ => rfl) fun _ => .pure _
  case increment o | decrement o =>
    exact .resolve_bind ⟨id, id⟩ fun t ht => .bind (keeps_readTarget t) fun v =>
      .bind keeps_regs fun now => .bind (keeps_setFlags _) fun _ =>
        .bind (keeps_writeTarget ht _) fun _ => .pure _
  case bits op o =>
    have ho : Admits (Instruction.bits op o).writes o.names := ⟨id, id⟩
    exact .resolve_bind ho fun t ht =>
      .bind (keeps_applyBits op ht nofun) fun _ => .pure _
  all_goals cases hgroup

private theorem keeps_words {i : Instruction} (hgroup : i.group = .words) :
    Keeps (Cpu.frame i.writes) (i.execute : Micro σ Nat) := by
  cases i
  case loadWordImmediate dst =>
    have hdst : Admits (Instruction.loadWordImmediate dst).writes
        dst.names := ⟨id, id⟩
    exact .bind keeps_fetch16 fun w => .bind (keeps_modifyRegs fun regs =>
      regs.outside_putWord hdst (by rintro rfl; rfl) w) fun _ => .pure _
  case loadWordAbsolute dst =>
    have hdst : Admits (Instruction.loadWordAbsolute dst).writes
        dst.names := ⟨id, id⟩
    exact .bind (fun _ _ _ => rfl) fun a => .bind (fun _ _ _ => rfl) fun w =>
      .bind (keeps_modifyRegs fun regs =>
        regs.outside_putWord hdst (by rintro rfl; rfl) w) fun _ => .pure _
  case incrementWord dst | decrementWord dst =>
    exact .bind (keeps_modifyRegs fun regs =>
      regs.outside_putWord ⟨id, id⟩ (by rintro rfl; rfl) _) fun _ => .pure _
  case addWord x w =>
    have hx : Admits (Instruction.addWord x w).writes fun y => x = y := ⟨id, id⟩
    exact .bind (keeps_modifyRegs fun regs =>
      regs.outside_setIndex hx _) fun _ =>
      .pure _
  case storeWordAbsolute | loadSp | adcWord | sbcWord => exact fun _ _ _ => rfl
  all_goals cases hgroup

private theorem keeps_stack {i : Instruction} (hgroup : i.group = .stack) :
    Keeps (Cpu.frame i.writes) (i.execute : Micro σ Nat) := by
  cases i
  case push => exact fun _ _ _ => rfl
  case pop r =>
    have hr : Admits (Instruction.pop r).writes r.names := ⟨id, id⟩
    exact .bind (fun _ _ _ => rfl) fun w =>
      .bind (keeps_modifyRegs fun regs => regs.outside_putStacked hr w)
        fun _ => .pure _
  case exchangeTop x =>
    have hx : Admits (Instruction.exchangeTop x).writes fun y => x
        = y := ⟨id, id⟩
    exact .bind keeps_regs fun now => .bind (fun _ _ _ => rfl) fun w =>
      .bind (keeps_modifyRegs fun regs => regs.outside_setIndex hx _)
        fun _ => .pure _
  all_goals cases hgroup

private theorem keeps_jump {i : Instruction} (hgroup : i.group = .jump) :
    Keeps (Cpu.frame i.writes) (i.execute : Micro σ Nat) := by
  cases i
  case jumpIf cc =>
    exact .bind keeps_fetch16 fun target => .bind (fun _ _ _ => rfl) fun _ =>
      .bind keeps_regs fun now =>
        .ite (.bind (fun _ _ _ => rfl) fun _ => .pure _) (.pure _)
  case jumpRelativeIf cc =>
    exact .bind keeps_fetch8 fun d => .bind keeps_regs fun now =>
      .ite (.bind (keeps_jumpBy d) fun _ => .pure _) (.pure _)
  case djnz =>
    exact .bind keeps_fetch8 fun d => .bind keeps_regs fun now =>
      .bind (fun _ _ _ => rfl) fun _ =>
        .ite (.bind (keeps_jumpBy d) fun _ => .pure _) (.pure _)
  case jump | jumpPointer | jumpRelative => exact fun _ _ _ => rfl
  all_goals cases hgroup

private theorem keeps_call {i : Instruction} (hgroup : i.group = .call)
    (h : i.RegistersOnly) :
    Keeps (Cpu.frame i.writes) (i.execute : Micro σ Nat) := by
  cases i
  case callIf cc =>
    exact .bind keeps_fetch16 fun target => .bind (fun _ _ _ => rfl) fun _ =>
      .bind keeps_regs fun now =>
        .ite (.bind (fun _ _ _ => rfl) fun _ => .pure _) (.pure _)
  case retIf cc =>
    exact .bind keeps_regs fun now =>
      .ite (.bind (fun _ _ _ => rfl) fun _ => .pure _) (.pure _)
  case call | ret | rst => exact fun _ _ _ => rfl
  case retn => exact h.elim
  all_goals cases hgroup

private theorem keeps_transfer {i : Instruction}
    (hgroup : i.group = .transfer) :
    Keeps (Cpu.frame i.writes) (i.execute : Micro σ Nat) := by
  cases i
  case input dst =>
    refine .bind keeps_regs fun now => .bind (fun _ _ _ => rfl) fun v =>
      .bind (keeps_modifyRegs fun regs => ?_) fun _ => .pure _
    cases dst with
    | none => rfl
    | some r =>
        have hr : Admits (Instruction.input (some r)).writes r.names := ⟨id, id⟩
        exact Registers.outside_set _ hr v
  case block action direction repeats =>
    have hstep : Keeps
        (Cpu.frame (Instruction.block action direction repeats).writes)
        (Block.step direction action : Micro σ Bool) := by
      cases action <;> exact fun _ _ _ => rfl
    exact .bind hstep fun more =>
      .ite (.bind (fun _ _ _ => rfl) fun _ => .pure _) (.pure _)
  case inputA | outputA | output => exact fun _ _ _ => rfl
  all_goals cases hgroup

/-- An instruction that changes registers only leaves the frame of what it
writes as it was. -/
theorem keeps_execute {i : Instruction} (h : i.RegistersOnly) :
    Keeps (Cpu.frame i.writes) (i.execute : Micro σ Nat) := by
  cases hgroup : i.group with
  | bytes => exact keeps_bytes hgroup
  | words => exact keeps_words hgroup
  | stack => exact keeps_stack hgroup
  | jump => exact keeps_jump hgroup
  | call => exact keeps_call hgroup h
  | transfer => exact keeps_transfer hgroup
  | control =>
      cases i
      case nop => exact fun _ _ _ => rfl
      case halt | di | ei | im => exact h.elim
      all_goals cases hgroup
  | accumulator | exchange =>
      cases i <;> cases hgroup <;> exact fun _ _ _ => rfl

/-- The control state is not in the registers. -/
theorem regs_controls (i : Instruction) (cpu : Cpu) :
    (i.controls cpu).regs = cpu.regs := by
  cases i <;> rfl

/-- The frame of any instruction, with the control state that it names. -/
theorem frame_execute (i : Instruction) (bus : Bus σ) (cpu : Cpu) (host : σ) :
    (i.execute bus cpu host).1.2.frame i.writes
      = (i.controls cpu).frame i.writes := by
  by_cases h : i.RegistersOnly
  · have hcontrols : i.controls cpu = cpu := by
      cases i
      case halt | di | ei | im | retn => exact h.elim
      all_goals rfl
    rw [hcontrols]
    exact keeps_execute h bus cpu host
  · cases i
    case halt | di | ei | im | retn => rfl
    all_goals exact absurd trivial h

/-- No instruction reaches a register that it does not write. -/
theorem outside_execute (i : Instruction) :
    Keeps (fun cpu => cpu.regs.outside i.writes) (i.execute : Micro σ Nat) := by
  intro bus cpu host
  have hframe : (i.execute bus cpu host).1.2.regs.outside i.writes
      = (i.controls cpu).regs.outside i.writes :=
        congrArg Cpu.regs (frame_execute i bus cpu host)
  rw [regs_controls] at hframe
  exact hframe

end ConsoleBoard.Z80
