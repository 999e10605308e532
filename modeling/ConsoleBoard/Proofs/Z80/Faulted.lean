/-
The stop flag.

A host that marks a core faulted wants it to stand still until the mark is
taken away. Of the two ways to let a core run only one asks for the mark: a
run against a budget is refused and gives its budget back (`exec_faulted`),
while a single step does to a faulted core what it does to any other
(`step_withFault`), interrupts included, and leaves the mark on it.

Since a step keeps the mark, the refusals go on behind it. So whatever a host
calls, a faulted core goes the way of its single steps alone
(`performAll_faulted`), and as each of them takes time, it stands still
exactly if there are none.
-/
import ConsoleBoard.Proofs.Z80.Reachable

namespace ConsoleBoard.Z80

open Bench (Access)

variable {σ β : Type}

-- ========================================================= the single step

/-- The core with the mark set or taken away. -/
def Cpu.withFault (cpu : Cpu) (faulted : Bool) : Cpu := { cpu with faulted }

/-- Accepting an interrupt does not look at the fault. -/
private theorem accept_withFault (request : Interrupt) (faulted : Bool)
    (bus : Bus σ) (cpu : Cpu) (host : σ) :
    request.accept bus (cpu.withFault faulted) host
      = (((request.accept bus cpu host).1.1,
          (request.accept bus cpu host).1.2.withFault faulted),
          (request.accept bus cpu host).2) := by
  obtain ⟨regs, iff1, iff2, im, vector, irq, nmi, halted, mark, spare, ei,
    pre⟩ := cpu
  cases request with
  | nmi => rfl
  | irq => cases im <;> rfl

/-- A step does not go by the mark. -/
theorem step_withFault (faulted : Bool) (bus : Bus σ) (cpu : Cpu) (host : σ) :
    step bus (cpu.withFault faulted) host
      = (((step bus cpu host).1.1, (step bus cpu host).1.2.withFault faulted),
          (step bus cpu host).2) := by
  have hsame : (cpu.withFault faulted).acceptable = cpu.acceptable := rfl
  have hawake : (cpu.withFault faulted).halted = cpu.halted := rfl
  rw [step_eq, step_eq, hsame, hawake]
  cases cpu.acceptable with
  | some request => exact accept_withFault request faulted bus cpu host
  | none =>
      cases cpu.halted with
      | true => rfl
      | false =>
          -- the other lines come out as they went in
          have hmark : (instruction bus cpu host).1.2.withLines
              { cpu.lines with faulted }
              = (instruction bus cpu host).1.2.withFault faulted := by
            rw [← ordinary_instruction.lines bus cpu host]
            rfl
          show instruction bus (cpu.withLines { cpu.lines with
              faulted }) host = _
          rw [ordinary_instruction.blind, hmark]
          rfl

/-- Nor do many. -/
theorem steps_withFault (faulted : Bool) (bus : Bus σ) (n : Nat) (z : Z80)
    (host : σ) :
    steps bus n (z.onCpu (·.withFault faulted)) host
      = (((steps bus n z host).1.1,
          (steps bus n z host).1.2.onCpu (·.withFault faulted)),
          (steps bus n z host).2) := by
  induction n generalizing z host with
  | zero => rfl
  | succ n ih =>
      have hfirst : stepOnce bus (z.onCpu (·.withFault faulted)) host
          = (((stepOnce bus z host).1.1,
              (stepOnce bus z host).1.2.onCpu (·.withFault faulted)),
              (stepOnce bus z host).2) := by
        have hstep := step_withFault faulted bus z.cpu host
        unfold stepOnce
        rw [show (z.onCpu (·.withFault faulted)).cpu
          = z.cpu.withFault faulted from rfl, hstep]
        rfl
      rw [steps_succ, steps_succ, hfirst]
      dsimp only
      rw [ih]

/-- Single steps leave the fault as it was. -/
private theorem faulted_steps (bus : Bus σ) (n : Nat) (z : Z80) (host : σ) :
    (steps bus n z host).1.2.cpu.faulted = z.cpu.faulted := by
  induction n generalizing z host with
  | zero => rfl
  | succ n ih =>
      rw [steps_succ]
      exact (ih _ _).trans (faulted_step bus z.cpu host)

/-- Steps take time. -/
theorem le_steps (bus : Bus σ) (n : Nat) (z : Z80) (host : σ) :
    4 * n ≤ (steps bus n z host).1.1 := by
  induction n generalizing z host with
  | zero => exact Nat.le_refl 0
  | succ n ih =>
      have hfirst : 4 ≤ (stepOnce bus z host).1.1 := four_le_step bus z.cpu host
      have hrest := ih (stepOnce bus z host).1.2 (stepOnce bus z host).2
      rw [steps_succ]
      dsimp only
      omega

-- ========================================================= the two entries

/-- The operation lets the core run. -/
def Operation.IsEntry : Operation → Prop
  | .call (.exec _) | .call .step => True
  | _ => False

instance (op : Operation) : Decidable op.IsEntry :=
  match op with
  | .call (.exec _) | .call .step => .isTrue trivial
  | .call (.addCycles _) | .call (.core _) | .reset | .restore _ => .isFalse id

/-- How often the core is stepped. -/
def stepCount (ops : List Operation) : Nat := ops.count (.call .step)

/-- A faulted core goes the way of its single steps, and every run is given its
budget back. -/
theorem performAll_faulted (bus : Bus σ) {ops : List Operation}
    (hops : ∀ op ∈ ops, op.IsEntry) {z : Z80} (hfault : z.cpu.faulted = true)
    (host : σ) :
    let after := performAll bus ops z host
    let stepped := steps bus (stepCount ops) z host
    after.1.2 = stepped.1.2 ∧ after.2 = stepped.2
      ∧ ∀ (i : Nat) (cycles : Int), ops[i]? = some (.call (.exec cycles)) →
          after.1.1[i]? = some (some cycles) := by
  -- over the calls; each leaves a faulted core, at which `ih` goes on
  induction ops generalizing z host with
  | nil => exact ⟨rfl, rfl, nofun⟩
  | cons op rest ih =>
      have hrest : ∀ op ∈ rest, op.IsEntry :=
        fun op hop => hops op (List.mem_cons_of_mem _ hop)
      rw [performAll_cons]
      match op, hops op List.mem_cons_self with
      | .call (.exec budget), _ =>
          have hrefused : (Operation.call (.exec budget)).perform bus z host
              = ((some budget, z), host) := by
            have hexec := exec_faulted bus budget hfault host
            show ((some (exec bus budget z host).1.1,
                (exec bus budget z host).1.2),
              (exec bus budget z host).2) = _
            rw [hexec]
          have hcount : stepCount (.call (.exec budget) :: rest)
              = stepCount rest :=
            List.count_cons_of_ne fun hsame => by cases hsame
          obtain ⟨hz, hhost, hresults⟩ := ih hrest hfault host
          rw [hrefused, hcount]
          refine ⟨hz, hhost, fun i cycles hi => ?_⟩
          cases i with
          | zero =>
              cases hi
              rfl
          | succ i => exact hresults i cycles hi
      | .call .step, _ =>
          have hcount : stepCount (.call .step :: rest) = stepCount rest + 1 :=
            List.count_cons_self
          obtain ⟨hz, hhost, hresults⟩ :=
            ih hrest (z := (stepOnce bus z host).1.2)
              ((faulted_step bus z.cpu host).trans hfault)
                (step bus z.cpu host).2
          rw [hcount, steps_succ]
          refine ⟨hz, hhost, fun i cycles hi => ?_⟩
          cases i with
          | zero => cases hi
          | succ i => exact hresults i cycles hi

/-- A faulted core refuses runs and takes single steps. Take any calls that let
a core run, in any order. Every run gives its budget back, and the mark stays.
Nothing else happens either, neither in the processor nor at its host, exactly
if no single step is among the calls: each of them takes time, and does what it
would do without the mark. -/
theorem faulted_refuses_runs (parts : Parts σ β) {ops : List Operation}
    (hops : ∀ op ∈ ops, op.IsEntry) {z : Z80} (hfault : z.cpu.faulted = true)
    (host : σ) (log : List Access) :
    let bus := parts.recorded.bus
    let after := performAll bus ops z (host, log)
    let unmarked :=
      steps bus (stepCount ops) (z.onCpu (·.withFault false)) (host, log)
    (∀ (i : Nat) (cycles : Int), ops[i]? = some (.call (.exec cycles)) →
        after.1.1[i]? = some (some cycles))
      ∧ after.1.2.cpu.faulted = true
      ∧ (after.1.2 = z ∧ after.2 = (host, log) ↔ .call .step ∉ ops)
      ∧ after.1.2 = unmarked.1.2.onCpu (·.withFault true)
      ∧ after.2 = unmarked.2 := by
  intro bus after unmarked
  obtain ⟨hz, hhost, hresults⟩ := performAll_faulted bus hops hfault (host, log)
  -- the mark is put on a core without one, so that the steps can be compared
  have hmarked : z = (z.onCpu (·.withFault false)).onCpu
      (·.withFault true) := by
    obtain ⟨⟨regs, iff1, iff2, im, vector, irq, nmi, halted, mark, spare, ei,
        pre⟩, clock⟩ := z
    cases hfault
    rfl
  have hstepped :=
    steps_withFault true bus (stepCount ops) (z.onCpu (·.withFault false))
      (host, log)
  rw [← hmarked] at hstepped
  refine ⟨hresults, ?_, ⟨fun hstill hstep => ?_, fun hnone => ?_⟩, ?_, ?_⟩
  · rw [hz, faulted_steps, hfault]
  · -- a step would be on the total
    have htotal : (steps bus (stepCount ops) z (host, log)).1.2.clock.total
        = z.clock.total :=
      congrArg (·.clock.total) (hz.symm.trans hstill.1)
    have hused := le_steps bus (stepCount ops) z (host, log)
    have hcount : 0 < stepCount ops := List.count_pos_iff.2 hstep
    rw [clock_steps] at htotal
    dsimp only [Clock.charge] at htotal
    omega
  · have hcount : stepCount ops = 0 := List.count_eq_zero.2 hnone
    rw [hcount] at hz hhost
    exact ⟨hz, hhost⟩
  · rw [hz, hstepped]
  · rw [hhost, hstepped]

/-- Three runs of a faulted core with an NMI pending, all of them refused. -/
theorem faulted_refuses_runs_nmi :
    let z : Z80 :=
      { cpu := { Cpu.powerOn with nmiPending := true, faulted := true } }
    let ops : List Operation :=
      [.call (.exec 100), .call (.exec (-7)), .call (.exec 2147483647)]
    let after := performAll openBus.recorded.bus ops z ((), [])
    after.1.1[1]? = some (some (-7)) ∧ after.1.2 = z ∧ after.2 = ((), []) := by
  intro z ops after
  have hentries : ∀ op ∈ ops, op.IsEntry := by decide
  have hfault : z.cpu.faulted = true := rfl
  obtain ⟨hresults, -, hstill, -⟩ :=
    faulted_refuses_runs openBus hentries hfault () []
  obtain ⟨hz, hhost⟩ := hstill.2 (by decide)
  exact ⟨hresults 1 (-7) rfl, hz, hhost⟩

/-- A faulted core takes a single step: it fetches the RST 38h of an open bus,
pushes PC and counts eleven T-states. -/
theorem faulted_steps_once :
    let z : Z80 := { cpu := { Cpu.powerOn with faulted := true } }
    let after := performAll openBus.recorded.bus [.call (.exec 100),
      .call .step] z ((), [])
    after.1.1 = [some 100, some 11] ∧ after.1.2.cpu.regs.pc = 0x0038
      ∧ after.1.2.clock.total = 11 ∧ after.2.2.length = 2 ∧ after.1.2 ≠ z := by
  decide +kernel

end ConsoleBoard.Z80
