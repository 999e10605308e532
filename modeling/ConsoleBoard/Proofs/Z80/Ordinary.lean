/-
What an instruction may do, whatever the processor is wired to.

The instruction set is written once for every host, so what an instruction
leaves alone is said of the action itself (`Micro.Ordinary`): it is blind to
the lines that a host raises and lowers (`Cpu.lines`), which it neither
looks at nor changes, and it runs no interrupt acknowledge cycle. For the
second a list is put beside the host, to which each acknowledge cycle adds
the vector it was given (`Bus.watched`). An ordinary action does on the
watched bus what it does on the bus, and the list stays as it was.

An action without a branch is ordinary by computation. The lemmas follow
the branches: operands, the CB operations, block steps, then one case for
each kind of instruction and each prefix byte.
-/
import ConsoleBoard.Z80.Step

namespace ConsoleBoard.Z80

open Micro

variable {α β : Type}

-- ====================================================== what is left alone

/-- The part of a core that its host sets, and that no instruction
changes. -/
structure Lines where
  vector : UInt8
  irqPending : Bool
  nmiPending : Bool
  faulted : Bool
  spareStatus : UInt8
deriving DecidableEq

def Cpu.lines (cpu : Cpu) : Lines where
  vector := cpu.vector
  irqPending := cpu.irqPending
  nmiPending := cpu.nmiPending
  faulted := cpu.faulted
  spareStatus := cpu.spareStatus

/-- The core with its lines set by the host. -/
def Cpu.withLines (cpu : Cpu) (lines : Lines) : Cpu :=
  { cpu with
    vector := lines.vector
    irqPending := lines.irqPending
    nmiPending := lines.nmiPending
    faulted := lines.faulted
    spareStatus := lines.spareStatus }

/-- Call the host and leave what stands beside it alone. -/
def beside {σ τ : Type} (call : StateM σ α) : StateM (σ × τ) α :=
  fun (host, rest) =>
  ((call host).1, (call host).2, rest)

/-- The bus with the vectors of its acknowledge cycles beside the host, the
latest last. -/
def Bus.watched {σ : Type} (bus : Bus σ) : Bus (σ × List UInt8) where
  memory := {
    readByte := fun address => beside (bus.memory.readByte address)
    writeByte := fun address v => beside (bus.memory.writeByte address v)
    readWord := fun address => beside (bus.memory.readWord address)
    writeWord := fun address w => beside (bus.memory.writeWord address w) }
  ports := {
    input := fun port => beside (bus.ports.input port)
    output := fun port v => beside (bus.ports.output port v) }
  interrupts := {
    acknowledge := fun vector (host, log) =>
      ((bus.interrupts.acknowledge vector host).1,
        (bus.interrupts.acknowledge vector host).2, log ++ [vector])
    finished := beside bus.interrupts.finished }
  fetch := fun address => beside (bus.fetch address)

/-- On every bus the action does the same whatever the lines of the host say,
leaves them as they are, and acknowledges nothing. -/
structure Micro.Ordinary (m : (σ : Type) → Micro σ α) : Prop where
  blind : ∀ {σ : Type} (bus : Bus σ) (cpu : Cpu) (host : σ) (lines : Lines),
    m σ bus (cpu.withLines lines) host
      = (((m σ bus cpu host).1.1, (m σ bus cpu host).1.2.withLines lines),
          (m σ bus cpu host).2)
  watched : ∀ {σ : Type} (bus : Bus σ) (cpu : Cpu) (host : σ)
      (log : List UInt8),
    m _ bus.watched cpu (host, log)
      = ((m σ bus cpu host).1, (m σ bus cpu host).2, log)

namespace Micro.Ordinary

/-- The lines come out as they went in. -/
theorem lines {m : (σ : Type) → Micro σ α} (h : Ordinary m) {σ : Type}
    (bus : Bus σ) (cpu : Cpu) (host : σ) :
    (m σ bus cpu host).1.2.lines = cpu.lines := by
  have hblind := h.blind bus cpu host cpu.lines
  rw [show cpu.withLines cpu.lines = cpu from rfl] at hblind
  rw [hblind]
  rfl

theorem pure (a : α) : Ordinary fun σ => (Pure.pure a : Micro σ α) :=
  ⟨fun _ _ _ _ => rfl, fun _ _ _ _ => rfl⟩

/-- One ordinary action after another. -/
theorem bind {m : (σ : Type) → Micro σ α} {next : (σ : Type) → α → Micro σ β}
    (hm : Ordinary m) (hnext : ∀ a, Ordinary fun σ => next σ a) :
    Ordinary fun σ => m σ >>= next σ where
  blind bus cpu host lines := by
    show next _ (m _ bus (cpu.withLines lines) host).1.1 bus
      (m _ bus (cpu.withLines lines) host).1.2
        (m _ bus (cpu.withLines lines) host).2 = _
    rw [hm.blind]
    exact (hnext _).blind bus _ _ lines
  watched bus cpu host log := by
    show next _ (m _ bus.watched cpu (host, log)).1.1 bus.watched
      (m _ bus.watched cpu (host, log)).1.2
        (m _ bus.watched cpu (host, log)).2 = _
    rw [hm.watched]
    exact (hnext _).watched bus _ _ log

theorem ite {c : Prop} [Decidable c] {m m' : (σ : Type) → Micro σ α}
    (hm : Ordinary m) (hm' : Ordinary m') :
    Ordinary fun σ => if c then m σ else m' σ := by
  split
  · exact hm
  · exact hm'

end Micro.Ordinary

-- =========================================================== small actions

/-- A change of the registers is out of reach of the lines. -/
theorem ordinary_modifyRegs (change : Registers → Registers) :
    Ordinary fun σ => (modifyRegs change : Micro σ Unit) :=
  ⟨fun _ _ _ _ => rfl, fun _ _ _ _ => rfl⟩

private theorem ordinary_regs : Ordinary fun σ => (regs : Micro σ Registers) :=
  ⟨fun _ _ _ _ => rfl, fun _ _ _ _ => rfl⟩

private theorem ordinary_fetch8 : Ordinary fun σ => (fetch8 : Micro σ UInt8) :=
  ⟨fun _ _ _ _ => rfl, fun _ _ _ _ => rfl⟩

private theorem ordinary_fetchOpcode :
    Ordinary fun σ => (fetchOpcode : Micro σ UInt8) :=
  .bind (ordinary_modifyRegs _) fun _ => ordinary_fetch8

private theorem ordinary_fetch16 :
    Ordinary fun σ => (fetch16 : Micro σ UInt16) :=
  .bind ordinary_fetch8 fun _ => .bind ordinary_fetch8 fun _ => .pure _

private theorem ordinary_indexedAddress (x : Index) :
    Ordinary fun σ => (indexedAddress x : Micro σ UInt16) :=
  ⟨fun _ _ _ _ => rfl, fun _ _ _ _ => rfl⟩

private theorem ordinary_jumpBy (d : UInt8) :
    Ordinary fun σ => (jumpBy d : Micro σ Unit) :=
  .bind ordinary_regs fun _ => ordinary_modifyRegs _

private theorem ordinary_callTo (target : UInt16) :
    Ordinary fun σ => (callTo target : Micro σ Unit) :=
  ⟨fun _ _ _ _ => rfl, fun _ _ _ _ => rfl⟩

private theorem ordinary_returnFrom :
    Ordinary fun σ => (returnFrom : Micro σ Unit) :=
  ⟨fun _ _ _ _ => rfl, fun _ _ _ _ => rfl⟩

-- ================================================================ operands

private theorem ordinary_resolve (o : Operand) :
    Ordinary fun σ => (o.resolve : Micro σ Target) := by
  cases o with
  | reg r => exact .pure _
  | memory x => cases x <;> exact ⟨fun _ _ _ _ => rfl, fun _ _ _ _ => rfl⟩

private theorem ordinary_readTarget (t : Target) :
    Ordinary fun σ => (t.read : Micro σ UInt8) := by
  cases t <;> exact ⟨fun _ _ _ _ => rfl, fun _ _ _ _ => rfl⟩

private theorem ordinary_writeTarget (v : UInt8) (t : Target) :
    Ordinary fun σ => (t.write v : Micro σ Unit) := by
  cases t <;> exact ⟨fun _ _ _ _ => rfl, fun _ _ _ _ => rfl⟩

private theorem ordinary_readOperand (o : Operand) :
    Ordinary fun σ => (o.read : Micro σ UInt8) :=
  .bind (ordinary_resolve o) ordinary_readTarget

-- ============================================================ instructions

/-- The CB operations are ordinary. -/
private theorem ordinary_applyBits (op : BitOp) (t : Target)
    (copy : Option ByteReg) :
    Ordinary fun σ => (op.apply t copy : Micro σ Unit) := by
  have hstore : ∀ v, Ordinary fun σ =>
      (BitOp.apply.store t copy v : Micro σ Unit) := by
    intro v
    refine .bind (ordinary_writeTarget v t) fun _ => ?_
    cases copy with
    | none => exact .pure _
    | some r => exact ordinary_modifyRegs _
  refine .bind (ordinary_readTarget t) fun v =>
    .bind ordinary_regs fun now => ?_
  cases op with
  | test n => exact ordinary_modifyRegs _
  | shift s => exact .bind (ordinary_modifyRegs _) fun _ => hstore _
  | reset n => exact hstore _
  | set n => exact hstore _

/-- A pass of a block instruction is ordinary. -/
private theorem ordinary_blockStep (action : BlockAction)
    (direction : Direction) :
    Ordinary fun σ => (Block.step direction action : Micro σ Bool) := by
  cases action <;> exact ⟨fun _ _ _ _ => rfl, fun _ _ _ _ => rfl⟩

/-- Every instruction is ordinary. -/
private theorem ordinary_execute (i : Instruction) :
    Ordinary fun σ => (i.execute : Micro σ Nat) := by
  cases i
  case load dst src =>
    exact .bind (ordinary_readOperand src) fun v =>
      .bind (ordinary_resolve dst) fun t =>
      .bind (ordinary_writeTarget v t) fun _ => .pure _
  case loadImmediate dst =>
    exact .bind (ordinary_resolve dst) fun t => .bind ordinary_fetch8 fun v =>
      .bind (ordinary_writeTarget v t) fun _ => .pure _
  case alu op src =>
    exact .bind (ordinary_readOperand src) fun v =>
      .bind (ordinary_modifyRegs _) fun _ => .pure _
  case increment o | decrement o =>
    exact .bind (ordinary_resolve o) fun t =>
      .bind (ordinary_readTarget t) fun v =>
      .bind ordinary_regs fun now => .bind (ordinary_modifyRegs _) fun _ =>
        .bind (ordinary_writeTarget _ t) fun _ => .pure _
  case bits op o =>
    exact .bind (ordinary_resolve o) fun t =>
      .bind (ordinary_applyBits op t none) fun _ =>
      .pure _
  case jumpIf cc =>
    exact .bind ordinary_fetch16 fun target =>
      .bind (ordinary_modifyRegs _) fun _ =>
      .bind ordinary_regs fun now =>
        .ite (.bind (ordinary_modifyRegs _) fun _ => .pure _) (.pure _)
  case jumpRelativeIf cc =>
    exact .bind ordinary_fetch8 fun d => .bind ordinary_regs fun now =>
      .ite (.bind (ordinary_jumpBy d) fun _ => .pure _) (.pure _)
  case djnz =>
    exact .bind ordinary_fetch8 fun d => .bind ordinary_regs fun now =>
      .bind (ordinary_modifyRegs _) fun _ =>
        .ite (.bind (ordinary_jumpBy d) fun _ => .pure _) (.pure _)
  case callIf cc =>
    exact .bind ordinary_fetch16 fun target =>
      .bind (ordinary_modifyRegs _) fun _ =>
      .bind ordinary_regs fun now =>
        .ite (.bind (ordinary_callTo target) fun _ => .pure _) (.pure _)
  case retIf cc =>
    exact .bind ordinary_regs fun now =>
      .ite (.bind ordinary_returnFrom fun _ => .pure _) (.pure _)
  case block action direction repeats =>
    exact .bind (ordinary_blockStep action direction) fun more =>
      .ite (.bind (ordinary_modifyRegs _) fun _ => .pure _) (.pure _)
  -- what is left has no branch: its effect on the core and the host computes
  all_goals exact ⟨fun _ _ _ _ => rfl, fun _ _ _ _ => rfl⟩

/-- An instruction behind page bytes is ordinary. -/
private theorem ordinary_perform (lead : Nat) (i : Instruction) :
    Ordinary fun σ => (perform lead i : Micro σ Nat) :=
  .bind (ordinary_execute i) fun _ => .pure _

private theorem ordinary_indexedBits (x : Index) :
    Ordinary fun σ => (indexedBits x : Micro σ Nat) :=
  .bind (ordinary_indexedAddress x) fun _ => .bind ordinary_fetch8 fun _ =>
    .bind (ordinary_applyBits _ _ _) fun _ => .pure _

private theorem ordinary_heldPrefix :
    Ordinary fun σ => (heldPrefix : Micro σ Nat) :=
  ⟨fun _ _ _ _ => rfl, fun _ _ _ _ => rfl⟩

private theorem ordinary_indexed (x : Index) :
    Ordinary fun σ => (indexed x : Micro σ Nat) := by
  refine .bind ordinary_fetchOpcode fun op => ?_
  split
  · exact ordinary_heldPrefix
  · exact ordinary_heldPrefix
  · exact ordinary_heldPrefix
  · exact ordinary_indexedBits x
  · exact ordinary_perform _ _

/-- Every dispatch is ordinary. -/
private theorem ordinary_dispatch (op : UInt8) :
    Ordinary fun σ => (dispatch op : Micro σ Nat) := by
  unfold dispatch
  split
  · exact .bind ordinary_fetchOpcode fun _ => ordinary_perform _ _
  · exact .bind ordinary_fetchOpcode fun _ => ordinary_perform _ _
  · exact ordinary_indexed .ix
  · exact ordinary_indexed .iy
  · exact ordinary_perform _ _

/-- An instruction, with the prefix bytes before it, is ordinary. -/
theorem ordinary_instruction : Ordinary fun σ => (instruction : Micro σ Nat) :=
  .bind ⟨fun _ _ _ _ => rfl, fun _ _ _ _ => rfl⟩ fun _ =>
    .bind ordinary_fetchOpcode ordinary_dispatch

end ConsoleBoard.Z80
