/-
Interrupts at the boundaries of a run.

# One boundary

Between two instructions a core takes the non-maskable interrupt, takes
the maskable one, rests when it has halted, or runs an instruction. `Turn`
says which of these happens and what is then left, in the words of the
flip-flops, the shadows and the requests: what is not named in a rule stays
as it was. The rules exclude each other and leave nothing out: a step is
the one turn that its boundary has (`turn_iff`).

# A run

`Turns` puts turns one after another while something is left of a budget.
A run is such turns (`turns_spend`), also where its loop burns the refresh
cycles of a sleeping core at once, because that burn is the cycles one by
one (`spend_step`). `taken` is the list of the interrupts on the way.
-/
import ConsoleBoard.Proofs.Z80.Exec

namespace ConsoleBoard.Z80

variable {σ : Type}

-- ========================================================== the conditions

namespace Cpu

/-- The core takes the non-maskable interrupt here. -/
def TakesNmi (cpu : Cpu) : Prop :=
  cpu.prefixShadow = false ∧ cpu.nmiPending = true

/-- The core takes the maskable interrupt here. -/
def TakesIrq (cpu : Cpu) : Prop :=
  cpu.prefixShadow = false ∧ cpu.nmiPending = false
    ∧ cpu.irqPending = true ∧ cpu.iff1 = true ∧ cpu.eiShadow = false

/-- The NMI is taken just if it is pending, off a prefix. -/
private theorem acceptable_eq_nmi_iff (cpu : Cpu) :
    cpu.acceptable = some .nmi ↔ cpu.TakesNmi := by
  unfold acceptable TakesNmi
  cases cpu.prefixShadow <;> cases cpu.nmiPending <;> simp

/-- The interrupt is taken just if it is pending, enabled and not shadowed. -/
private theorem acceptable_eq_irq_iff (cpu : Cpu) :
    cpu.acceptable = some .irq ↔ cpu.TakesIrq := by
  unfold acceptable TakesIrq
  cases cpu.prefixShadow <;> cases cpu.nmiPending <;> simp [and_assoc]

/-- Nothing is taken if neither interrupt is. -/
private theorem acceptable_eq_none_iff (cpu : Cpu) :
    cpu.acceptable = none ↔ ¬cpu.TakesNmi ∧ ¬cpu.TakesIrq := by
  rw [← acceptable_eq_nmi_iff, ← acceptable_eq_irq_iff]
  cases cpu.acceptable with
  | none => exact ⟨fun _ => ⟨nofun, nofun⟩, fun _ => rfl⟩
  | some request => cases request <;> simp

-- ============================================================= the handler

/-- The core in a handler: awake and refreshed once, IFF1 cleared, PC on the
stack, and the address of the handler in PC and WZ. -/
def enter (cpu : Cpu) (handler : UInt16) : Cpu :=
  { cpu with
    halted := false
    iff1 := false
    regs := { cpu.regs with
      r := Registers.refresh cpu.regs.r 1
      sp := cpu.regs.sp - 2
      pc := handler
      wz := handler } }

/-- The host with PC written below the stack pointer. -/
def stack (cpu : Cpu) (bus : Bus σ) (host : σ) : σ :=
  (bus.memory.writeWord (cpu.regs.sp - 2) cpu.regs.pc host).2

end Cpu

-- ============================================================ one boundary

/-- What happens at a boundary: the interrupt taken if any, the T-states
used, and the core and host behind it. -/
inductive Turn (bus : Bus σ) (cpu : Cpu) (host : σ) :
    Option Interrupt → Nat → Cpu → σ → Prop
  | nmi (htakes : cpu.TakesNmi) :
      Turn bus cpu host (some .nmi) 11
        { cpu.enter 0x0066 with nmiPending := false } (cpu.stack bus host)
  /-- In modes zero and one the handler is a restart, in mode zero the one that
  the peripheral puts on the bus. -/
  | restart (htakes : cpu.TakesIrq) (hmode : cpu.im ≠ .two) {data : UInt8}
      {host' : σ}
      (hdata : bus.interrupts.acknowledge cpu.vector host = (data, host'))
      {handler : UInt16}
      (hhandler : handler = if cpu.im = .zero ∧ data &&& 0xC7 = 0xC7
        then (data &&& 0x38).toUInt16 else 0x0038) :
      Turn bus cpu host (some .irq) 13
        { cpu.enter handler with irqPending := false, iff2 := false }
          (cpu.stack bus host')
  /-- In mode two the handler stands in a table, which is read behind the
  push. -/
  | vectored (htakes : cpu.TakesIrq) (hmode : cpu.im = .two) {data : UInt8}
      {host' : σ}
      (hdata : bus.interrupts.acknowledge cpu.vector host = (data, host'))
      {handler : UInt16} {host'' : σ}
      (hhandler : bus.memory.readWord
        (cpu.regs.i.toUInt16 * 256 + data.toUInt16)
        (cpu.stack bus host') = (handler, host'')) :
      Turn bus cpu host (some .irq) 19
        { cpu.enter handler with irqPending := false, iff2 := false } host''
  | rest (hnone : ¬cpu.TakesNmi ∧ ¬cpu.TakesIrq) (hhalted : cpu.halted = true) :
      Turn bus cpu host none 4 (cpu.refreshed 1) host
  /-- An instruction leaves the requests of the host as they are. -/
  | run (hnone : ¬cpu.TakesNmi ∧ ¬cpu.TakesIrq) (hawake : cpu.halted = false)
      {used : Nat} {after : Cpu} {host' : σ}
      (hrun : instruction bus cpu host = ((used, after), host'))
      (hlines : after.lines = cpu.lines) :
      Turn bus cpu host none used after host'

/-- An accepted interrupt is a turn of its own. -/
private theorem turn_acceptIrq (bus : Bus σ) {cpu : Cpu} (htakes : cpu.TakesIrq)
    (host : σ) :
    Turn bus cpu host (some .irq) (acceptIrq bus cpu host).1.1
      (acceptIrq bus cpu host).1.2 (acceptIrq bus cpu host).2 := by
  -- with the core taken apart, the mode alone decides and the rest computes
  obtain ⟨regs, iff1, iff2, im, vector, irq, nmi, halted, faulted, spare, ei,
    pre⟩ := cpu
  cases im with
  | zero => exact .restart htakes nofun rfl (by simp [restartOf])
  | one => exact .restart htakes nofun rfl rfl
  | two => exact .vectored htakes rfl rfl rfl

/-- A step is a turn of what it takes. -/
theorem turn_step (bus : Bus σ) (cpu : Cpu) (host : σ) :
    Turn bus cpu host cpu.acceptable (step bus cpu host).1.1
      (step bus cpu host).1.2 (step bus cpu host).2 := by
  rw [step_eq]
  cases hacceptable : cpu.acceptable with
  | some request =>
      cases request with
      | nmi => exact .nmi (cpu.acceptable_eq_nmi_iff.1 hacceptable)
      | irq =>
          exact turn_acceptIrq bus
            (cpu.acceptable_eq_irq_iff.1 hacceptable) host
  | none =>
      have hnone := cpu.acceptable_eq_none_iff.1 hacceptable
      cases hhalted : cpu.halted with
      | true => exact .rest hnone hhalted
      | false =>
          exact .run hnone hhalted rfl (ordinary_instruction.lines bus cpu host)

/-- A boundary has no other turn than its step. -/
theorem Turn.eq_step {bus : Bus σ} {cpu : Cpu} {host : σ}
    {request : Option Interrupt} {used : Nat} {after : Cpu} {host' : σ}
    (h : Turn bus cpu host request used after host') :
    cpu.acceptable = request ∧ step bus cpu host = ((used, after), host') := by
  rw [step_eq]
  cases h with
  | nmi htakes =>
      rw [cpu.acceptable_eq_nmi_iff.2 htakes]
      exact ⟨rfl, rfl⟩
  | restart htakes hmode hdata hhandler =>
      rw [cpu.acceptable_eq_irq_iff.2 htakes]
      refine ⟨rfl, ?_⟩
      obtain ⟨rfl, rfl⟩ := Prod.mk.inj hdata
      subst hhandler
      obtain ⟨regs, iff1, iff2, im, vector, irq, nmi, halted, faulted, spare,
        ei, pre⟩ := cpu
      -- modes 0 and 1 call the restart
      cases im with
      | zero => simp only [true_and]; rfl
      | one => rfl
      | two => exact absurd rfl hmode
  | vectored htakes hmode hdata hhandler =>
      rw [cpu.acceptable_eq_irq_iff.2 htakes]
      refine ⟨rfl, ?_⟩
      obtain ⟨rfl, rfl⟩ := Prod.mk.inj hdata
      obtain ⟨rfl, rfl⟩ := Prod.mk.inj hhandler
      obtain ⟨regs, iff1, iff2, im, vector, irq, nmi, halted, faulted, spare,
        ei, pre⟩ := cpu
      cases im with
      | zero => cases hmode
      | one => cases hmode
      | two => rfl
  | rest hnone hhalted =>
      rw [cpu.acceptable_eq_none_iff.2 hnone, hhalted]
      exact ⟨rfl, rfl⟩
  | run hnone hawake hrun hlines =>
      rw [cpu.acceptable_eq_none_iff.2 hnone, hawake]
      exact ⟨rfl, hrun⟩

/-- The turns of a core are its steps. -/
theorem turn_iff {bus : Bus σ} {cpu : Cpu} {host : σ}
    {request : Option Interrupt} {used : Nat} {after : Cpu} {host' : σ} :
    Turn bus cpu host request used after host' ↔
      cpu.acceptable = request ∧ step bus cpu host
        = ((used, after), host') := by
  refine ⟨Turn.eq_step, ?_⟩
  rintro ⟨rfl, hstep⟩
  have hturn := turn_step bus cpu host
  rw [hstep] at hturn
  exact hturn

-- =================================================================== a run

/-- Turns one after another while something is left of a budget. -/
inductive Turns (bus : Bus σ) :
    Int → Cpu → σ → List Interrupt → Int → Cpu → σ → Prop
  | done {left : Int} {cpu : Cpu} {host : σ} (h : left ≤ 0) :
      Turns bus left cpu host [] left cpu host
  | turn {left : Int} {cpu : Cpu} {host : σ} (h : 0 < left)
      {request : Option Interrupt} {used : Nat} {cpu' : Cpu} {host' : σ}
      (hturn : Turn bus cpu host request used cpu' host')
      {later : List Interrupt} {left' : Int} {cpu'' : Cpu} {host'' : σ}
      (hlater : Turns bus (left - used) cpu' host' later left' cpu'' host'') :
      Turns bus left cpu host (request.toList ++ later) left' cpu'' host''

/-- The interrupts that a run takes, in order. -/
def taken (bus : Bus σ) (left : Int) (cpu : Cpu) (host : σ) : List Interrupt :=
  if 0 < left then
    cpu.acceptable.toList
      ++ taken bus (left - (step bus cpu host).1.1) (step bus cpu host).1.2
        (step bus cpu host).2
  else
    []
termination_by left.toNat
decreasing_by
  have hused := four_le_step bus cpu host
  omega

theorem taken_done {left : Int} (h : left ≤ 0) (bus : Bus σ) (cpu : Cpu)
    (host : σ) :
    taken bus left cpu host = [] := by
  rw [taken, if_neg (by omega)]

/-- What a run takes is what its first step takes, and the rest. -/
theorem taken_step {left : Int} (h : 0 < left) (bus : Bus σ) (cpu : Cpu)
    (host : σ) :
    taken bus left cpu host
      = cpu.acceptable.toList
        ++ taken bus (left - (step bus cpu host).1.1) (step bus cpu host).1.2
          (step bus cpu host).2 := by
  rw [taken, if_pos h]

/-- The steps of a run: the recursion of `taken`, and by `spend_step` that of
`spend` as well. -/
@[elab_as_elim]
theorem run_induction (bus : Bus σ) {motive : Int → Cpu → σ → Prop}
    (done : ∀ left cpu host, left ≤ 0 → motive left cpu host)
    (next : ∀ left cpu host, 0 < left →
      motive (left - (step bus cpu host).1.1) (step bus cpu host).1.2
        (step bus cpu host).2 → motive left cpu host)
    (left : Int) (cpu : Cpu) (host : σ) : motive left cpu host := by
  induction left, cpu, host using taken.induct bus with
  | case1 left cpu host h ih => exact next left cpu host h ih
  | case2 left cpu host h => exact done left cpu host (by omega)

/-- A run is turns, and `taken` lists the interrupts of them. -/
theorem turns_spend (bus : Bus σ) (left : Int) (cpu : Cpu) (host : σ) :
    Turns bus left cpu host (taken bus left cpu host)
      (spend bus left cpu host).1.1 (spend bus left cpu host).1.2
      (spend bus left cpu host).2 := by
  induction left, cpu, host using run_induction bus with
  | done left cpu host h =>
      rw [taken_done h, spend_done h]
      exact .done h
  | next left cpu host h ih =>
      rw [taken_step h, spend_step h]
      exact .turn h (turn_step bus cpu host) ih

end ConsoleBoard.Z80
