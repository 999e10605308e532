/-
HL and an index register with their values exchanged.

Two registers that exchange values and names are as before. So an
instruction that reaches HL by the names of its operands alone may run on
the exchanged core instead, with the other name in its operands: the result
is the same, once the values are exchanged back. `Micro.Mirrors` says this
of an action, and the lemmas follow the branches: small actions, operands,
then the instructions, group by group.

Left out are the instructions that reach HL otherwise. EX DE,HL, EXX and
those of the other pages name it themselves, and an operand in memory is
not at the pointer under a prefix but a displacement away (`direct`).
-/
import ConsoleBoard.Proofs.Z80.Group
import ConsoleBoard.Z80.Step

namespace ConsoleBoard.Z80

open Micro

variable {σ α β : Type}

-- =============================================================== exchanged

/-- The name of the pointer `y` after HL and `x` have changed places. -/
def Index.swap (x y : Index) : Index :=
  match y with
  | .hl => x
  | .ix => match x with
    | .ix => .hl
    | _ => .ix
  | .iy => match x with
    | .iy => .hl
    | _ => .iy

namespace Registers

/-- HL and `x` with each other's value. -/
def swap (x : Index) (regs : Registers) : Registers :=
  match x with
  | .hl => regs
  | .ix => { regs with hl := regs.ix, ix := regs.hl }
  | .iy => { regs with hl := regs.iy, iy := regs.hl }

variable (x : Index) (regs : Registers)

theorem swap_swap : (regs.swap x).swap x = regs := by cases x <;> rfl

-- --------------------------------------------------------- what stays put

private theorem swap_a : (regs.swap x).a = regs.a := by cases x <;> rfl

private theorem swap_f : (regs.swap x).f = regs.f := by cases x <;> rfl

private theorem swap_bc : (regs.swap x).bc = regs.bc := by cases x <;> rfl

private theorem swap_sp : (regs.swap x).sp = regs.sp := by cases x <;> rfl

theorem swap_pc : (regs.swap x).pc = regs.pc := by cases x <;> rfl

private theorem swap_i : (regs.swap x).i = regs.i := by cases x <;> rfl

private theorem swap_r : (regs.swap x).r = regs.r := by cases x <;> rfl

/-- The exchange leaves the pairs that address memory for A. -/
private theorem getAddress_swap (p : AddressPair) :
    (regs.swap x).getAddress p = regs.getAddress p := by
  cases x <;> cases p <;> rfl

-- ------------------------------------------------------------ the pointers

/-- A pointer is found under its other name. -/
private theorem index_swap (y : Index) :
    (regs.swap x).index y = regs.index (x.swap y) := by
  cases x <;> cases y <;> rfl

/-- A pointer is set under its other name. -/
private theorem swap_setIndex (y : Index) (p : Pair) :
    ((regs.swap x).setIndex y p).swap x = regs.setIndex (x.swap y) p := by
  cases x <;> cases y <;> rfl

end Registers

def Cpu.swap (x : Index) (cpu : Cpu) : Cpu :=
  { cpu with regs := cpu.regs.swap x }

/-- The exchange of a core is that of its registers. -/
theorem Cpu.regs_swap (x : Index) (cpu : Cpu) :
    (cpu.swap x).regs = cpu.regs.swap x := rfl

theorem Cpu.swap_swap (x : Index) (cpu : Cpu) : (cpu.swap x).swap x = cpu := by
  unfold Cpu.swap
  rw [Registers.swap_swap]

-- ================================================================ operands

def ByteReg.swap (x : Index) : ByteReg → ByteReg
  | .high y => .high (x.swap y)
  | .low y => .low (x.swap y)
  | r => r

def Operand.swap (x : Index) : Operand → Operand
  | .reg r => .reg (r.swap x)
  | .memory y => .memory (x.swap y)

def WordReg.swap (x : Index) : WordReg → WordReg
  | .pointer y => .pointer (x.swap y)
  | w => w

def StackReg.swap (x : Index) : StackReg → StackReg
  | .pointer y => .pointer (x.swap y)
  | r => r

namespace Registers

variable (x : Index) (regs : Registers)

/-- A register is read under its other name. -/
private theorem get_swap (r : ByteReg) :
    (regs.swap x).get r = regs.get (r.swap x) := by
  cases r with
  | high y | low y => simp only [get, ByteReg.swap, index_swap]
  | _ => cases x <;> rfl

/-- A register is written under its other name. -/
private theorem swap_set (v : UInt8) (r : ByteReg) :
    ((regs.swap x).set v r).swap x = regs.set v (r.swap x) := by
  cases r with
  | high y | low y => simp only [set, ByteReg.swap, index_swap, swap_setIndex]
  | _ => cases x <;> rfl

/-- A word register is read under its other name. -/
private theorem getWord_swap (w : WordReg) :
    (regs.swap x).getWord w = regs.getWord (w.swap x) := by
  cases w with
  | pointer y => simp only [getWord, WordReg.swap, index_swap]
  | _ => cases x <;> rfl

/-- A word register is written under its other name. -/
private theorem swap_putWord (v : UInt16) (w : WordReg) :
    ((regs.swap x).putWord v w).swap x = regs.putWord v (w.swap x) := by
  cases w with
  | pointer y => simp only [putWord, WordReg.swap, swap_setIndex]
  | _ => cases x <;> rfl

/-- A stacked register is read under its other name. -/
private theorem getStacked_swap (r : StackReg) :
    (regs.swap x).getStacked r = regs.getStacked (r.swap x) := by
  cases r with
  | pointer y => simp only [getStacked, StackReg.swap, index_swap]
  | _ => cases x <;> rfl

/-- A stacked register is written under its other name. -/
private theorem swap_putStacked (v : UInt16) (r : StackReg) :
    ((regs.swap x).putStacked v r).swap x = regs.putStacked v (r.swap x) := by
  cases r with
  | pointer y => simp only [putStacked, StackReg.swap, swap_setIndex]
  | _ => cases x <;> rfl

end Registers

-- ======================================================== mirrored actions

/-- The action does what `m'` does on the core with HL and `x` exchanged. -/
def Micro.Mirrors (x : Index) (m m' : Micro σ α) : Prop :=
  ∀ bus cpu host,
    let there := m' bus (cpu.swap x) host
    m bus cpu host = ((there.1.1, there.1.2.swap x), there.2)

namespace Micro.Mirrors

variable {x : Index}

theorem pure (a : α) : Mirrors x (Pure.pure a : Micro σ α) (Pure.pure a) :=
  fun _ cpu host =>
  congrArg (fun cpu => ((a, cpu), host)) (cpu.swap_swap x).symm

theorem bind {m m' : Micro σ α} {next next' : α → Micro σ β}
    (hm : Mirrors x m m') (hnext : ∀ a, Mirrors x (next a) (next' a)) :
    Mirrors x (m >>= next) (m' >>= next') := by
  intro bus cpu host
  show next (m bus cpu host).1.1 bus (m bus cpu host).1.2 (m bus cpu host).2 = _
  rw [hm, hnext, Cpu.swap_swap]
  rfl

/-- What an action reads of the core may differ by the exchange. -/
theorem get {next next' : Cpu → Micro σ α}
    (hnext : ∀ cpu, Mirrors x (next cpu) (next' (cpu.swap x))) :
    Mirrors x (MonadState.get >>= next) (MonadState.get >>= next') :=
  fun bus cpu host => hnext cpu bus cpu host

/-- What an action reads of the registers may differ by the exchange. -/
theorem regs {next next' : Registers → Micro σ α}
    (hnext : ∀ now, Mirrors x (next now) (next' (now.swap x))) :
    Mirrors x (Micro.regs >>= next) (Micro.regs >>= next') :=
  fun bus cpu host => hnext cpu.regs bus cpu host

/-- A change of the core mirrors itself if it does not look at the exchange. -/
theorem modifyCpu {change : Cpu → Cpu}
    (h : ∀ cpu, change cpu = (change (cpu.swap x)).swap x) :
    Mirrors x (modify change : Micro σ Unit) (modify change) :=
  fun _ cpu host => congrArg (fun cpu => (((), cpu), host)) (h cpu)

theorem modifyRegs {change change' : Registers → Registers}
    (h : ∀ regs, change regs = (change' (regs.swap x)).swap x) :
    Mirrors x (Micro.modifyRegs change : Micro σ Unit)
      (Micro.modifyRegs change') :=
  fun _ cpu host =>
    congrArg (fun regs => (((), ({ cpu with regs } : Cpu)), host)) (h cpu.regs)

theorem ite {c : Prop} [Decidable c] {m m' n n' : Micro σ α}
    (hm : Mirrors x m m') (hn : Mirrors x n n') :
    Mirrors x (if c then m else n) (if c then m' else n') := by
  split
  · exact hm
  · exact hn

/-- A call of the host knows nothing of the core. -/
theorem host (call : Bus σ → StateM σ α) :
    Mirrors x (fun bus cpu host =>
      (((call bus host).1, cpu), (call bus host).2))
      (fun bus cpu host => (((call bus host).1, cpu), (call bus host).2)) :=
  fun bus cpu host =>
    congrArg (fun cpu => (((call bus host).1, cpu), (call bus host).2))
      (cpu.swap_swap x).symm

end Micro.Mirrors

variable {x : Index}

-- ---------------------------------------------------------- small actions

private theorem mirrors_read8 (a : UInt16) :
    Mirrors x (read8 a : Micro σ UInt8) (read8 a) :=
  .host fun bus => bus.memory.readByte a

private theorem mirrors_write8 (a : UInt16) (v : UInt8) :
    Mirrors x (write8 a v : Micro σ Unit) (write8 a v) :=
  .host fun bus => bus.memory.writeByte a v

private theorem mirrors_read16 (a : UInt16) :
    Mirrors x (read16 a : Micro σ UInt16) (read16 a) :=
  .host fun bus => bus.memory.readWord a

private theorem mirrors_write16 (a w : UInt16) :
    Mirrors x (write16 a w : Micro σ Unit) (write16 a w) :=
  .host fun bus => bus.memory.writeWord a w

private theorem mirrors_input (port : UInt16) :
    Mirrors x (input port : Micro σ UInt8) (input port) :=
  .host fun bus => bus.ports.input port

private theorem mirrors_output (port : UInt16) (v : UInt8) :
    Mirrors x (output port v : Micro σ Unit) (output port v) :=
  .host fun bus => bus.ports.output port v

private theorem mirrors_setWz (w : UInt16) :
    Mirrors x (setWz w : Micro σ Unit) (setWz w) :=
  .modifyRegs fun _ => by cases x <;> rfl

private theorem mirrors_goTo (target : UInt16) :
    Mirrors x (goTo target : Micro σ Unit) (goTo target) :=
  .modifyRegs fun _ => by cases x <;> rfl

private theorem mirrors_fetch8 : Mirrors x (fetch8 : Micro σ UInt8) fetch8 := by
  refine .get fun cpu => ?_
  rw [cpu.regs_swap, cpu.regs.swap_pc]
  exact .bind (.modifyRegs fun _ => by cases x <;> rfl) fun _ =>
    .host fun bus => bus.fetch cpu.regs.pc

private theorem mirrors_fetch16 :
    Mirrors x (fetch16 : Micro σ UInt16) fetch16 :=
  .bind mirrors_fetch8 fun _ => .bind mirrors_fetch8 fun _ => .pure _

private theorem mirrors_push (w : UInt16) :
    Mirrors x (Micro.push w : Micro σ Unit) (Micro.push w) := by
  refine .get fun cpu => ?_
  rw [cpu.regs_swap, cpu.regs.swap_sp]
  exact .bind (.modifyRegs fun _ => by cases x <;> rfl) fun _ =>
    mirrors_write16 _ w

private theorem mirrors_pop :
    Mirrors x (Micro.pop : Micro σ UInt16) Micro.pop := by
  refine .get fun cpu => ?_
  rw [cpu.regs_swap, cpu.regs.swap_sp]
  exact .bind (mirrors_read16 _) fun _ =>
    .bind (.modifyRegs fun _ => by cases x <;> rfl) fun _ => .pure _

private theorem mirrors_exchangeTop (w : UInt16) :
    Mirrors x (Micro.exchangeTop w : Micro σ UInt16) (Micro.exchangeTop w) := by
  refine .get fun cpu => ?_
  rw [cpu.regs_swap, cpu.regs.swap_sp]
  exact .bind (mirrors_read16 _) fun _ => .bind (mirrors_write16 _ w) fun _ =>
    .bind (mirrors_setWz _) fun _ => .pure _

private theorem mirrors_callTo (target : UInt16) :
    Mirrors x (callTo target : Micro σ Unit) (callTo target) := by
  refine .get fun cpu => ?_
  rw [cpu.regs_swap, cpu.regs.swap_pc]
  exact .bind (mirrors_push _) fun _ => mirrors_goTo target

private theorem mirrors_returnFrom :
    Mirrors x (returnFrom : Micro σ Unit) returnFrom :=
  .bind mirrors_pop mirrors_goTo

private theorem mirrors_jumpBy (d : UInt8) :
    Mirrors x (jumpBy d : Micro σ Unit) (jumpBy d) := by
  refine .regs fun now => ?_
  rw [now.swap_pc]
  exact mirrors_goTo _

private theorem mirrors_loadAFrom (a : UInt16) :
    Mirrors x (loadAFrom a : Micro σ Unit) (loadAFrom a) :=
  .bind (mirrors_read8 a) fun _ => .modifyRegs fun _ => by cases x <;> rfl

private theorem mirrors_storeATo (a : UInt16) :
    Mirrors x (storeATo a : Micro σ Unit) (storeATo a) := by
  refine .get fun cpu => ?_
  rw [cpu.regs_swap, cpu.regs.swap_a]
  exact .bind (mirrors_write8 a _) fun _ => mirrors_setWz _

private theorem mirrors_absoluteWord :
    Mirrors x (absoluteWord : Micro σ UInt16) absoluteWord :=
  .bind mirrors_fetch16 fun _ => .bind (mirrors_setWz _) fun _ => .pure _

private theorem mirrors_loadSpecial (v : UInt8) :
    Mirrors x (loadSpecial v : Micro σ Unit) (loadSpecial v) :=
  .get fun _ => .modifyRegs fun _ => by cases x <;> rfl

-- --------------------------------------------------------- byte operands

def Operand.isReg : Operand → Bool
  | .reg _ => true
  | .memory _ => false

/-- A register is found without a look at the core, under its other name. -/
theorem Micro.Mirrors.resolve {o : Operand} (ho : o.isReg = true)
    {next next' : Target → Micro σ α}
    (hnext : ∀ r, Mirrors x (next (.reg (r.swap x))) (next' (.reg r))) :
    Mirrors x ((o.swap x).resolve >>= next) (o.resolve >>= next') := by
  cases o with
  | reg r => exact hnext r
  | memory y => cases ho

/-- A found register is read under its other name. -/
private theorem mirrors_readReg (r : ByteReg) :
    Mirrors x ((Target.reg (r.swap x)).read : Micro σ UInt8)
      (Target.reg r).read := by
  refine .regs fun now => ?_
  rw [now.get_swap]
  exact .pure _

private theorem mirrors_writeReg (v : UInt8) (r : ByteReg) :
    Mirrors x ((Target.reg (r.swap x)).write v : Micro σ Unit)
      ((Target.reg r).write v) := by
  show Mirrors x (modifyRegs (·.set v (r.swap x))) (modifyRegs (·.set v r))
  exact .modifyRegs fun regs => (regs.swap_set x v r).symm

private theorem mirrors_readOperand {o : Operand} (ho : o.isReg = true) :
    Mirrors x ((o.swap x).read : Micro σ UInt8) o.read :=
  .resolve ho mirrors_readReg

-- ============================================================ instructions

namespace Instruction

/-- The instruction with HL and `x` exchanged in the names of its operands. -/
def swap (x : Index) : Instruction → Instruction
  | load dst src => load (dst.swap x) (src.swap x)
  | loadImmediate dst => loadImmediate (dst.swap x)
  | loadWordImmediate dst => loadWordImmediate (dst.swap x)
  | loadWordAbsolute dst => loadWordAbsolute (dst.swap x)
  | storeWordAbsolute src => storeWordAbsolute (src.swap x)
  | loadSp y => loadSp (x.swap y)
  | push r => push (r.swap x)
  | pop r => pop (r.swap x)
  | exchangeTop y => exchangeTop (x.swap y)
  | alu op src => alu op (src.swap x)
  | increment o => increment (o.swap x)
  | decrement o => decrement (o.swap x)
  | incrementWord w => incrementWord (w.swap x)
  | decrementWord w => decrementWord (w.swap x)
  | addWord y w => addWord (x.swap y) (w.swap x)
  | jumpPointer y => jumpPointer (x.swap y)
  | i => i

/-- The instruction reaches HL by the names of its operands alone, and none of
them is in memory behind a pointer. -/
def direct : Instruction → Bool
  | load dst src => dst.isReg && src.isReg
  | loadImmediate o | alu _ o | increment o | decrement o => o.isReg
  | exchangeShadows | exchangeDeHl => false
  | adcWord _ | sbcWord _ | rotateDigitsLeft | rotateDigitsRight | bits _ _
  | input _ | output _ | block _ _ _ => false
  | _ => true

end Instruction

-- Each lemma goes through one group; the members that are not direct, and the
-- other groups, drop out by what is assumed.

/-- Nothing here has a pointer. -/
private theorem mirrors_control {i : Instruction}
    (hgroup : i.group = .control) :
    Mirrors x ((i.swap x).execute : Micro σ Nat) i.execute := by
  cases i
  case nop => exact .pure 0
  case halt | di | ei | im =>
    exact .bind (.modifyCpu fun _ => by cases x <;> rfl) fun _ => .pure 0
  all_goals cases hgroup

/-- Byte operands, found under their other names. -/
private theorem mirrors_bytes {i : Instruction} (hgroup : i.group = .bytes)
    (h : i.direct = true) :
    Mirrors x ((i.swap x).execute : Micro σ Nat) i.execute := by
  cases i
  case load dst src =>
    obtain ⟨hdst, hsrc⟩ := Bool.and_eq_true_iff.1 h
    exact .bind (mirrors_readOperand hsrc) fun v => .resolve hdst fun r =>
      .bind (mirrors_writeReg v r) fun _ => .pure 0
  case loadImmediate dst =>
    exact .resolve h fun r => .bind mirrors_fetch8 fun v =>
      .bind (mirrors_writeReg v r) fun _ => .pure 0
  case alu op src =>
    exact .bind (mirrors_readOperand h) fun v =>
      .bind (.modifyRegs fun _ => by cases x <;> rfl) fun _ => .pure 0
  case increment o | decrement o =>
    refine .resolve h fun r => .bind (mirrors_readReg r) fun v =>
      .regs fun now => ?_
    rw [now.swap_f]
    exact .bind (.modifyRegs fun _ => by cases x <;> rfl) fun _ =>
      .bind (mirrors_writeReg _ r) fun _ => .pure 0
  case bits => cases h
  all_goals cases hgroup

/-- Word operands, found under their other names. -/
private theorem mirrors_words {i : Instruction} (hgroup : i.group = .words)
    (h : i.direct = true) :
    Mirrors x ((i.swap x).execute : Micro σ Nat) i.execute := by
  cases i
  case loadWordImmediate dst =>
    exact .bind mirrors_fetch16 fun w =>
      .bind (.modifyRegs fun regs => (regs.swap_putWord x w dst).symm)
        fun _ => .pure 0
  case loadWordAbsolute dst =>
    exact .bind mirrors_absoluteWord fun a => .bind (mirrors_read16 a) fun w =>
      .bind (.modifyRegs fun regs => (regs.swap_putWord x w dst).symm)
        fun _ => .pure 0
  case storeWordAbsolute src =>
    refine .regs fun now => ?_
    rw [now.getWord_swap]
    exact .bind mirrors_absoluteWord fun a =>
      .bind (mirrors_write16 a _) fun _ => .pure 0
  case loadSp y =>
    refine .bind (.modifyRegs fun regs => ?_) fun _ => .pure 0
    rw [regs.index_swap]
    cases x <;> rfl
  case incrementWord w | decrementWord w =>
    refine .bind (.modifyRegs fun regs => ?_) fun _ => .pure 0
    rw [regs.swap_putWord, regs.getWord_swap]
  case addWord y w =>
    refine .bind (.modifyRegs fun regs => ?_) fun _ => .pure 0
    dsimp only
    rw [regs.getWord_swap, regs.index_swap, regs.swap_f]
    cases x <;> cases y <;> rfl
  case adcWord | sbcWord => cases h
  all_goals cases hgroup

/-- The words on the stack, from under their other names. -/
private theorem mirrors_stack {i : Instruction} (hgroup : i.group = .stack) :
    Mirrors x ((i.swap x).execute : Micro σ Nat) i.execute := by
  cases i
  case push r =>
    refine .regs fun now => ?_
    rw [now.getStacked_swap]
    exact .bind (mirrors_push _) fun _ => .pure 0
  case pop r =>
    exact .bind mirrors_pop fun w =>
      .bind (.modifyRegs fun regs => (regs.swap_putStacked x w r).symm)
        fun _ => .pure 0
  case exchangeTop y =>
    refine .regs fun now => ?_
    rw [now.index_swap]
    exact .bind (mirrors_exchangeTop _) fun w =>
      .bind (.modifyRegs fun regs => (regs.swap_setIndex x y _).symm)
        fun _ => .pure 0
  all_goals cases hgroup

/-- The accumulator is not exchanged, and what it loads is not either. -/
private theorem mirrors_accumulator {i : Instruction}
    (hgroup : i.group = .accumulator) (h : i.direct = true) :
    Mirrors x ((i.swap x).execute : Micro σ Nat) i.execute := by
  cases i
  case loadA source =>
    refine .regs fun now => ?_
    rw [now.getAddress_swap]
    exact .bind (mirrors_loadAFrom _) fun _ => .pure 0
  case storeA target =>
    refine .regs fun now => ?_
    rw [now.getAddress_swap]
    exact .bind (mirrors_storeATo _) fun _ => .pure 0
  case loadAAbsolute =>
    exact .bind mirrors_fetch16 fun a =>
      .bind (mirrors_loadAFrom a) fun _ => .pure 0
  case storeAAbsolute =>
    exact .bind mirrors_fetch16 fun a =>
      .bind (mirrors_storeATo a) fun _ => .pure 0
  case aluImmediate op =>
    exact .bind mirrors_fetch8 fun v =>
      .bind (.modifyRegs fun _ => by cases x <;> rfl) fun _ => .pure 0
  case rotateA | daa | cpl | scf | ccf | neg | storeI | storeR =>
    exact .bind (.modifyRegs fun _ => by cases x <;> rfl) fun _ => .pure 0
  case loadI =>
    refine .regs fun now => ?_
    rw [now.swap_i]
    exact .bind (mirrors_loadSpecial _) fun _ => .pure 0
  case loadR =>
    refine .regs fun now => ?_
    rw [now.swap_r]
    exact .bind (mirrors_loadSpecial _) fun _ => .pure 0
  case rotateDigitsLeft | rotateDigitsRight => cases h
  all_goals cases hgroup

/-- The shadow of A and F. -/
private theorem mirrors_exchange {i : Instruction}
    (hgroup : i.group = .exchange) (h : i.direct = true) :
    Mirrors x ((i.swap x).execute : Micro σ Nat) i.execute := by
  cases i
  case exchangeAf =>
    exact .bind (.modifyRegs fun _ => by cases x <;> rfl) fun _ => .pure 0
  case exchangeShadows | exchangeDeHl => cases h
  all_goals cases hgroup

/-- A jump through the pointer reads it under its other name. -/
private theorem mirrors_jump {i : Instruction} (hgroup : i.group = .jump) :
    Mirrors x ((i.swap x).execute : Micro σ Nat) i.execute := by
  cases i
  case jump =>
    exact .bind mirrors_fetch16 fun a => .bind (mirrors_goTo a) fun _ => .pure 0
  case jumpIf cc =>
    refine .bind mirrors_fetch16 fun a => .bind (mirrors_setWz a) fun _ =>
      .regs fun now => ?_
    rw [now.swap_f]
    exact .ite (.bind (mirrors_goTo a) fun _ => .pure 0) (.pure 0)
  case jumpPointer y =>
    refine .bind (.modifyRegs fun regs => ?_) fun _ => .pure 0
    rw [regs.index_swap]
    cases x <;> rfl
  case jumpRelative =>
    exact .bind mirrors_fetch8 fun d =>
      .bind (mirrors_jumpBy d) fun _ => .pure 0
  case jumpRelativeIf cc =>
    refine .bind mirrors_fetch8 fun d => .regs fun now => ?_
    rw [now.swap_f]
    exact .ite (.bind (mirrors_jumpBy d) fun _ => .pure _) (.pure 0)
  -- DJNZ counts in B, which no exchange touches
  case djnz =>
    refine .bind mirrors_fetch8 fun d => .regs fun now => ?_
    rw [now.swap_bc]
    exact .bind (.modifyRegs fun _ => by cases x <;> rfl) fun _ =>
      .ite (.bind (mirrors_jumpBy d) fun _ => .pure _) (.pure 0)
  all_goals cases hgroup

/-- Calls and returns do not look at the pointers. -/
private theorem mirrors_call {i : Instruction} (hgroup : i.group = .call) :
    Mirrors x ((i.swap x).execute : Micro σ Nat) i.execute := by
  cases i
  case call =>
    exact .bind mirrors_fetch16 fun a =>
      .bind (mirrors_callTo a) fun _ => .pure 0
  case callIf cc =>
    refine .bind mirrors_fetch16 fun a => .bind (mirrors_setWz a) fun _ =>
      .regs fun now => ?_
    rw [now.swap_f]
    exact .ite (.bind (mirrors_callTo a) fun _ => .pure _) (.pure 0)
  case ret => exact .bind mirrors_returnFrom fun _ => .pure 0
  case retIf cc =>
    refine .regs fun now => ?_
    rw [now.swap_f]
    exact .ite (.bind mirrors_returnFrom fun _ => .pure _) (.pure 0)
  case retn =>
    exact .bind mirrors_returnFrom fun _ =>
      .bind (.modifyCpu fun _ => by cases x <;> rfl) fun _ =>
        .host fun bus host => (0, (bus.interrupts.finished host).2)
  case rst n => exact .bind (mirrors_callTo _) fun _ => .pure 0
  all_goals cases hgroup

/-- The ports that A addresses. -/
private theorem mirrors_transfer {i : Instruction}
    (hgroup : i.group = .transfer) (h : i.direct = true) :
    Mirrors x ((i.swap x).execute : Micro σ Nat) i.execute := by
  cases i
  case inputA =>
    refine .bind mirrors_fetch8 fun n => .regs fun now => ?_
    rw [now.swap_a]
    exact .bind (mirrors_input _) fun v =>
      .bind (.modifyRegs fun _ => by cases x <;> rfl) fun _ => .pure 0
  case outputA =>
    refine .bind mirrors_fetch8 fun n => .regs fun now => ?_
    rw [now.swap_a]
    exact .bind (mirrors_output _ _) fun _ =>
      .bind (mirrors_setWz _) fun _ => .pure 0
  case input | output | block => cases h
  all_goals cases hgroup

/-- A direct instruction with the names exchanged does what it does itself on
the core with the values exchanged. -/
theorem mirrors_execute {i : Instruction} (h : i.direct = true) :
    Mirrors x ((i.swap x).execute : Micro σ Nat) i.execute := by
  cases hgroup : i.group with
  | control => exact mirrors_control hgroup
  | bytes => exact mirrors_bytes hgroup h
  | words => exact mirrors_words hgroup h
  | stack => exact mirrors_stack hgroup
  | accumulator => exact mirrors_accumulator hgroup h
  | exchange => exact mirrors_exchange hgroup h
  | jump => exact mirrors_jump hgroup
  | call => exact mirrors_call hgroup
  | transfer => exact mirrors_transfer hgroup h

end ConsoleBoard.Z80
