/-
Runs against a budget, as a host sees them.

`exec_running` writes a run down in terms of the loop once and for all: what
the loop leaves is zero or negative, so the carry is exactly what is left.
Everything else here reads a fact about the loop through it:

- `exec_eq_steps`: a run is single steps, taken while the budget lasts. The
  two are written apart (a run burns a sleep at once, a step takes one
  refresh cycle of it), and `spend_eq_steps` is the induction that brings
  them together.
- `exec_exec`: it does not matter how a budget is cut into calls.
- `exec_bounded`: a run ends, and overshoots by 22 T-states at most.

The accesses of a run are compared by putting a recorder on the bus.
-/
import ConsoleBoard.Proofs.Z80.Record
import ConsoleBoard.Proofs.Z80.Spend

namespace ConsoleBoard.Z80

open Bench (Access)

variable {σ β : Type}

-- ========================================================== repeated steps

/-- The accounts with `n` T-states more on the total. -/
def Clock.charge (clock : Clock) (n : Nat) : Clock :=
  { clock with total := clock.total + n }

private theorem charge_zero (clock : Clock) : clock.charge 0 = clock := rfl

theorem charge_charge (clock : Clock) (m n : Nat) :
    (clock.charge m).charge n = clock.charge (m + n) := by
  unfold Clock.charge
  rw [Nat.add_assoc]

/-- A single step charges the total and no other account. -/
theorem stepOnce_eq (bus : Bus σ) (z : Z80) (host : σ) :
    stepOnce bus z host
      = (((step bus z.cpu host).1.1,
          ⟨(step bus z.cpu host).1.2,
            z.clock.charge (step bus z.cpu host).1.1⟩),
          (step bus z.cpu host).2) := rfl

/-- `stepOnce` called `n` times. The result is the sum of the T-states. -/
def steps (bus : Bus σ) : Nat → StateT Z80 (StateM σ) Nat
  | 0 => return 0
  | n + 1 => do
      let used ← stepOnce bus
      let rest ← steps bus n
      return used + rest

private theorem steps_zero (bus : Bus σ) (z : Z80) (host : σ) :
    steps bus 0 z host = ((0, z), host) := rfl

/-- A run of steps is the first one and the others. -/
theorem steps_succ (bus : Bus σ) (n : Nat) (z : Z80) (host : σ) :
    steps bus (n + 1) z host =
      let first := stepOnce bus z host
      let rest := steps bus n first.1.2 first.2
      ((first.1.1 + rest.1.1, rest.1.2), rest.2) := rfl

/-- `n + 1` steps are `n` steps and one more. -/
theorem steps_snoc (bus : Bus σ) (n : Nat) (z : Z80) (host : σ) :
    steps bus (n + 1) z host =
      let before := steps bus n z host
      let last := stepOnce bus before.1.2 before.2
      ((before.1.1 + last.1.1, last.1.2), last.2) := by
  induction n generalizing z host with
  | zero =>
      rw [steps_succ, steps_zero]
      dsimp only
      rw [steps_zero, Nat.zero_add]
      rfl
  | succ n ih =>
      rw [steps_succ]
      dsimp only
      rw [ih, steps_succ]
      dsimp only
      rw [Nat.add_assoc]

/-- The clock is charged for all steps. -/
theorem clock_steps (bus : Bus σ) (n : Nat) (z : Z80) (host : σ) :
    (steps bus n z host).1.2.clock
      = z.clock.charge (steps bus n z host).1.1 := by
  induction n generalizing z host with
  | zero => rfl
  | succ n ih =>
      rw [steps_succ]
      dsimp only
      rw [ih, stepOnce_eq, charge_charge]

/-- A sleeping core steps by refresh cycles, and by nothing else. -/
theorem steps_asleep {cpu : Cpu} (h : cpu.asleep = true) (bus : Bus σ) (n : Nat)
    (clock : Clock) (host : σ) :
    steps bus n ⟨cpu, clock⟩ host
      = ((4 * n, ⟨cpu.refreshed n, clock.charge (4 * n)⟩), host) := by
  induction n generalizing cpu clock with
  | zero => rw [steps_zero, refreshed_zero, Nat.mul_zero, charge_zero]
  | succ n ih =>
      have hfirst : stepOnce bus ⟨cpu, clock⟩ host
          = ((4, ⟨cpu.refreshed 1, clock.charge 4⟩), host) := by
        rw [stepOnce_eq, step_asleep h]
        rfl
      have hsum : 4 + 4 * n = 4 * (n + 1) := by omega
      rw [steps_succ, hfirst]
      dsimp only
      rw [ih (by rw [asleep_refreshed, h]), refreshed_refreshed,
        charge_charge, hsum, Nat.add_comm 1 n]

/-- The loop is steps, taken while less than the budget has been used. -/
theorem spend_eq_steps (bus : Bus σ) (left : Int) (cpu : Cpu) (host : σ)
    (clock : Clock) :
    ∃ n, (∀ k < n, ((steps bus k ⟨cpu, clock⟩ host).1.1 : Int) < left)
      ∧ left ≤ (steps bus n ⟨cpu, clock⟩ host).1.1
      ∧ spend bus left cpu host
          = ((left - (steps bus n ⟨cpu, clock⟩ host).1.1,
              (steps bus n ⟨cpu, clock⟩ host).1.2.cpu),
              (steps bus n ⟨cpu, clock⟩ host).2) := by
  induction left, cpu, host using spend_cases bus generalizing clock with
  | done left cpu host h =>
      refine ⟨0, fun k hk => absurd hk (Nat.not_lt_zero k), h, ?_⟩
      rw [spend_done h, steps_zero]
      congr 2
      simp
  -- one burn is as many single steps: nothing that it passes over can wake the
  -- core
  | asleep left cpu host h hs =>
      have hcover := haltCycles_bounds h
      refine ⟨haltCycles left, fun k hk => ?_, ?_, ?_⟩
      · rw [steps_asleep hs]
        dsimp only
        omega
      · rw [steps_asleep hs]
        dsimp only
        omega
      · rw [spend_asleep h hs, steps_asleep hs]
        congr 2
  | awake left cpu host h hs ih =>
      obtain ⟨n, hbefore, hafter, heq⟩ :=
        ih (clock.charge (step bus cpu host).1.1)
      refine ⟨n + 1, fun k hk => ?_, ?_, ?_⟩
      · cases k with
        | zero => exact h
        | succ k =>
            have hk' := hbefore k (by omega)
            rw [steps_succ, stepOnce_eq]
            dsimp only
            omega
      · rw [steps_succ, stepOnce_eq]
        dsimp only
        omega
      · rw [spend_awake h hs, heq, steps_succ, stepOnce_eq]
        congr 2
        dsimp only
        omega

-- ================================================================= one run

/-- A faulted core runs nothing, and gives its budget back. -/
theorem exec_faulted (bus : Bus σ) (cycles : Int) {z : Z80}
    (h : z.cpu.faulted = true) (host : σ) :
    exec bus cycles z host = ((cycles, z), host) :=
  if_pos h

/-- A run in terms of the loop. What is left is zero or negative, so all of
it is carried. -/
theorem exec_running (bus : Bus σ) (cycles : Int) {z : Z80}
    (h : z.cpu.faulted = false) (host : σ) :
    exec bus cycles z host =
      let budget := cycles + z.clock.carry
      let run := spend bus budget z.cpu host
      ((reported run.1.1,
        ⟨run.1.2, ⟨budget, run.1.1, run.1.1,
          z.clock.total + (budget - run.1.1).toNat⟩⟩), run.2) := by
  have hcarry : min (spend bus (cycles + z.clock.carry) z.cpu host).1.1 0
      = (spend bus (cycles + z.clock.carry) z.cpu host).1.1 :=
    Int.min_eq_left (spend_remainder bus _ z.cpu host).1
  unfold exec
  rw [if_neg (Bool.eq_false_iff.1 h)]
  dsimp only
  rw [hcarry]

/-- A run with something left is a single step, then a run of what the step
leaves. -/
theorem exec_step (bus : Bus σ) {cycles : Int} {z : Z80}
    (h : z.cpu.faulted = false) (hsome : 0 < cycles + z.clock.carry)
    (host : σ) :
    let one := stepOnce bus z host
    let run := exec bus cycles z host
    let rest := exec bus (cycles - one.1.1) one.1.2 one.2
    run.1.1 = rest.1.1
      ∧ run.1.2.cpu = rest.1.2.cpu
      ∧ run.1.2.clock.total = rest.1.2.clock.total
      ∧ run.1.2.clock.carry = rest.1.2.clock.carry
      ∧ run.1.2.clock.left = rest.1.2.clock.left
      ∧ run.2 = rest.2 := by
  intro one run rest
  have hstill : one.1.2.cpu.faulted = false :=
    (faulted_step bus z.cpu host).trans h
  have hrun : run = _ := exec_running bus cycles h host
  have hrest : rest = _ := exec_running bus (cycles - one.1.1) hstill one.2
  have hone : one = _ := stepOnce_eq bus z host
  have hsplit := spend_step hsome bus z.cpu host
  have hbudget : cycles - ((step bus z.cpu host).1.1 : Int) + z.clock.carry
      = cycles + z.clock.carry - (step bus z.cpu host).1.1 := by omega
  dsimp only [Clock.charge] at hone hrun
  rw [hone] at hrest
  dsimp only at hrest
  rw [hbudget, ← hsplit] at hrest
  rw [hrun, hrest]
  refine ⟨rfl, rfl, ?_, rfl, rfl, rfl⟩
  -- the rest gives nothing back, so the two uses add up
  have hle := spend_le bus (cycles + z.clock.carry - (step bus z.cpu host).1.1)
    (step bus z.cpu host).1.2 (step bus z.cpu host).2
  rw [← hsplit] at hle
  dsimp only
  omega

/-- A run is single steps, taken again and again while they have used less
than the budget: it reaches the same core, total and host by the same
accesses, and returns what the steps have left of the budget. -/
theorem exec_eq_steps (parts : Parts σ β) (cycles : Int) (z : Z80) (host : σ)
    (log : List Access) (hrun : z.cpu.faulted = false) :
    let bus := parts.recorded.bus
    let budget := cycles + z.clock.carry
    let run := exec bus cycles z (host, log)
    let stepped := fun n => steps bus n z (host, log)
    ∃ n, (∀ k < n, ((stepped k).1.1 : Int) < budget)
      ∧ budget ≤ (stepped n).1.1
      ∧ (budget ≤ 0 → n = 0)
      ∧ run.1.2.cpu = (stepped n).1.2.cpu
      ∧ run.1.2.clock.total = (stepped n).1.2.clock.total
      ∧ run.2 = (stepped n).2
      ∧ run.1.1 = reported (budget - (stepped n).1.1) := by
  obtain ⟨cpu, clock⟩ := z
  intro bus budget run stepped
  obtain ⟨n, hbefore, hafter, heq⟩ :=
    spend_eq_steps bus budget cpu (host, log) clock
  have hclock := clock_steps bus n ⟨cpu, clock⟩ (host, log)
  have hexec : run = _ := exec_running bus cycles hrun (host, log)
  dsimp only at hexec
  rw [show cycles + clock.carry = budget from rfl, heq] at hexec
  refine ⟨n, hbefore, hafter, fun hnone => ?_, ?_, ?_, ?_, ?_⟩
  · -- no step is due when nothing is to be used
    by_contra hn
    have hfirst : (0 : Int) < budget := hbefore 0 (by omega)
    omega
  · rw [hexec]
  · rw [hexec, hclock]
    dsimp only
    rw [Int.sub_sub_self, Int.toNat_natCast]
    rfl
  · rw [hexec]
  · rw [hexec]

/-- A hundred T-states of the RST 38h that an open bus serves. -/
theorem exec_eq_steps_openBus :
    ({} : Z80).cpu.faulted = false
      ∧ ∃ n, (100 : Int) ≤ (steps openBus.recorded.bus n {} ((), [])).1.1
          ∧ (exec openBus.recorded.bus 100 {} ((), [])).2
              = (steps openBus.recorded.bus n {} ((), [])).2 := by
  obtain ⟨n, -, hused, -, -, -, haccesses, -⟩ :=
    exec_eq_steps openBus 100 {} () [] rfl
  exact ⟨rfl, n, hused, haccesses⟩

-- =========================================================== split budgets

/-- A budget may be cut into two calls anywhere: what the first call
overshoots, or what its carry swallows, is charged to the second, and the
two end as the one call does. -/
theorem exec_exec (parts : Parts σ β) (a b : Int) (z : Z80) (host : σ)
    (log : List Access) (hrun : z.cpu.faulted = false) (hb : 0 ≤ b) :
    let bus := parts.recorded.bus
    let first := exec bus a z (host, log)
    let second := exec bus b first.1.2 first.2
    let whole := exec bus (a + b) z (host, log)
    second.1.1 = whole.1.1
      ∧ second.1.2.cpu = whole.1.2.cpu
      ∧ second.1.2.clock.total = whole.1.2.clock.total
      ∧ second.1.2.clock.carry = whole.1.2.clock.carry
      ∧ second.1.2.clock.left = whole.1.2.clock.left
      ∧ second.2 = whole.2 := by
  intro bus first second whole
  have hfirst : first = _ := exec_running bus a hrun (host, log)
  have hstill : first.1.2.cpu.faulted = false := by
    rw [hfirst]
    exact (faulted_spend bus _ z.cpu (host, log)).trans hrun
  have hsecond : second = _ := exec_running bus b hstill first.2
  have hwhole : whole = _ := exec_running bus (a + b) hrun (host, log)
  have hsplit := spend_spend bus hb (a + z.clock.carry) z.cpu (host, log)
  rw [hfirst] at hsecond
  dsimp only at hsecond hwhole
  rw [Int.add_comm b, hsplit] at hsecond
  rw [hsecond, hwhole, Int.add_right_comm a b]
  refine ⟨rfl, rfl, ?_, rfl, rfl, rfl⟩
  -- neither call gives T-states back, so the two uses add up
  have hle := spend_le bus (a + z.clock.carry) z.cpu (host, log)
  have hle' :=
    spend_le bus ((spend bus (a + z.clock.carry) z.cpu (host, log)).1.1 + b)
      (spend bus (a + z.clock.carry) z.cpu (host, log)).1.2
      (spend bus (a + z.clock.carry) z.cpu (host, log)).2
  rw [hsplit] at hle'
  dsimp only
  omega

/-- Ten T-states and ninety more of the RST 38h that an open bus serves: the
cut falls inside the first instruction. -/
theorem exec_exec_openBus :
    ({} : Z80).cpu.faulted = false ∧ (0 : Int) ≤ 90
      ∧ (let first := exec openBus.recorded.bus 10 {} ((), [])
         (exec openBus.recorded.bus 90 first.1.2 first.2).2
           = (exec openBus.recorded.bus 100 {} ((), [])).2) := by
  obtain ⟨-, -, -, -, -, haccesses⟩ :=
    exec_exec openBus 10 90 {} () [] rfl (by decide)
  exact ⟨rfl, by decide, haccesses⟩

-- ============================================================== the bounds

/-- A run ends. Every instruction, every interrupt that is taken and every
refresh cycle of a halted core charges between 4 and 23 T-states, whatever
the core, the host and its memory; so the loop is left after a quarter of
the budget in passes, and it leaves at least -22. A budget that the carry
has swallowed runs nothing. -/
theorem exec_bounded (bus : Bus σ) :
    (Micro.Charges (instruction : Micro σ Nat)
      ∧ (∀ request : Interrupt, Micro.Charges (request.accept : Micro σ Nat))
      ∧ (4 ≤ haltCost ∧ haltCost ≤ 23)
      ∧ Micro.Charges (step : Micro σ Nat))
    ∧ ∀ (cycles : Int) (z : Z80) (host : σ), z.cpu.faulted = false →
      let budget := cycles + z.clock.carry
      let run := exec bus cycles z host
      let left := run.1.2.clock.left
      let passed := fun n => (pass bus)^[n] ((budget, z.cpu), host)
      run.1.1 = reported left
        ∧ (∃ n ≤ ((budget + 3) / 4).toNat,
            (∀ k < n, 0 < (passed k).1.1) ∧ (passed n).1.1 ≤ 0
              ∧ ((left, run.1.2.cpu), run.2) = passed n)
        ∧ (0 < budget → -22 ≤ left ∧ left ≤ 0)
        ∧ (budget ≤ 0 → left = budget ∧ run.1.2.cpu = z.cpu
          ∧ run.2 = host) := by
  refine ⟨⟨charges_instruction, charges_accept, by decide, charges_step⟩, ?_⟩
  intro cycles z host hrun budget run left passed
  -- the loop is the whole of a run that is not refused
  have hexec : run = _ := exec_running bus cycles hrun host
  have hleft : left = (spend bus budget z.cpu host).1.1 :=
    congrArg (·.1.2.clock.left) hexec
  have hloop : ((left, run.1.2.cpu), run.2) = spend bus budget z.cpu host := by
    rw [hleft, hexec]
  have hremainder := spend_remainder bus budget z.cpu host
  refine ⟨?_, ?_, fun hsome => ?_, fun hnone => ?_⟩
  · rw [hleft, hexec]
  · obtain ⟨n, hn, hbefore, hafter, hpassed⟩ :=
      spend_eq_passes bus budget z.cpu host
    exact ⟨n, hn, hbefore, hafter, hloop.trans hpassed⟩
  · rw [hleft]
    exact ⟨hremainder.2 hsome, hremainder.1⟩
  · rw [spend_done hnone] at hloop
    simp only [Prod.mk.injEq] at hloop
    exact ⟨hloop.1.1, hloop.1.2, hloop.2⟩

/-- A hundred T-states on an open bus overshoot by 22 at most. -/
theorem exec_bounded_openBus :
    ({} : Z80).cpu.faulted = false ∧ (0 : Int) < 100 + ({} : Z80).clock.carry
      ∧ -22 ≤ (exec openBus.bus 100 {} ()).1.2.clock.left
      ∧ (exec openBus.bus 100 {} ()).1.2.clock.left ≤ 0 := by
  obtain ⟨-, hruns⟩ := exec_bounded openBus.bus
  obtain ⟨-, -, hsome, -⟩ := hruns 100 {} () rfl
  exact ⟨rfl, by decide, hsome (by decide)⟩

end ConsoleBoard.Z80
