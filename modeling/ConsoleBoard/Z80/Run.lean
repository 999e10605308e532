/-
Running against a budget. A run takes whole steps until the budget is used
up; what the last one overshoots is carried and charged to the next run, so
over a session no T-state is lost or charged twice. A core that has halted
with nothing to wake it spends the rest of its budget at once.
-/
import ConsoleBoard.Z80.Cost

namespace ConsoleBoard

open Z80

namespace Z80

/-- The T-state accounts of a processor. -/
structure Clock where
  /-- Budget of the current or last run, carried overrun included. -/
  budget : Int := 0
  /-- What is left of it. -/
  left : Int := 0
  /-- Overrun charged to the next run: zero or negative, unless a host has
  given time back. -/
  carry : Int := 0
  /-- T-states since the last hard reset. -/
  total : Nat := 0
deriving DecidableEq

/-- Counts are reported as signed 32-bit numbers; larger ones stop at the
ends of that range. -/
def reported (count : Int) : Int := max (-2147483648) (min count 2147483647)

variable {σ : Type}

/-- The refresh cycles that cover `left` T-states of a halted core. -/
def haltCycles (left : Int) : Nat := ((left + 3) / 4).toNat

/-- Steps until the budget is used up. The result is what is left of it. -/
def spend (bus : Bus σ) (left : Int) (cpu : Cpu) (host : σ) : (Int × Cpu) × σ :=
  if 0 < left then
    if cpu.halted && cpu.acceptable.isNone then
      let regs := { cpu.regs with
        r := Registers.refresh cpu.regs.r (haltCycles left) }
      ((left - haltCost * haltCycles left, { cpu with regs }), host)
    else
      match _hstep : step bus cpu host with
      | ((used, after), host') => spend bus (left - used) after host'
  else
    ((left, cpu), host)
termination_by left.toNat
decreasing_by
  have hused := four_le_step bus cpu host
  rw [_hstep] at hused
  dsimp only at hused
  omega

end Z80

/-- A processor: its core and its accounts. What it is wired to is given to
each run. -/
structure Z80 where
  cpu : Cpu := .powerOn
  clock : Clock := {}
deriving DecidableEq

namespace Z80

variable {σ : Type}

/-- Run for a number of T-states. The result is what is left of the budget,
zero or negative after a run. A faulted core runs nothing and gives the
number back. -/
def exec (bus : Bus σ) (cycles : Int) : StateT Z80 (StateM σ) Int :=
  fun z host =>
  if z.cpu.faulted then
    ((cycles, z), host)
  else
    let budget := cycles + z.clock.carry
    let ((left, cpu), host) := spend bus budget z.cpu host
    let total := z.clock.total + (budget - left).toNat
    ((reported left,
        { cpu, clock := { budget, left, carry := min left 0, total } }), host)

/-- Take one step, whatever the budget. The result is its T-states. -/
def stepOnce (bus : Bus σ) : StateT Z80 (StateM σ) Nat := fun z host =>
  let ((used, cpu), host) := step bus z.cpu host
  ((used, { cpu, clock := { z.clock with total := z.clock.total + used } }),
    host)

/-- Step until the core halts or `limit` T-states have passed. The result is
the T-states used. -/
def runToHalt (bus : Bus σ) (limit : Nat) (z : Z80) (host : σ) :
    (Nat × Z80) × σ :=
  if 0 < limit && !z.cpu.halted then
    match _hstep : step bus z.cpu host with
    | ((used, cpu), host') =>
      let z' : Z80 :=
        { cpu, clock := { z.clock with total := z.clock.total + used } }
      let ((rest, z''), host'') := runToHalt bus (limit - used) z' host'
      ((used + rest, z''), host'')
  else
    ((0, z), host)
termination_by limit
decreasing_by
  have hused := four_le_step bus z.cpu host
  rw [_hstep] at hused
  dsimp only at hused
  simp_all only [Bool.and_eq_true, decide_eq_true_eq]
  omega

-- ============================================================ host control

/-- Everything but the wiring as after power-on. -/
def reset (_ : Z80) : Z80 := {}

/-- Change the core and leave the accounts alone. -/
def onCpu (z : Z80) (change : Cpu → Cpu) : Z80 := { z with cpu := change z.cpu }

/-- Charge extra T-states to the next run. -/
def addCycles (z : Z80) (n : Int) : Z80 :=
  { z with clock := { z.clock with carry := z.clock.carry - n } }

/-- T-states that the current or last run has used. -/
def cyclesDone (z : Z80) : Int := reported (z.clock.budget - z.clock.left)

def cyclesRemaining (z : Z80) : Int := reported z.clock.left

def carriedCycles (z : Z80) : Int := reported z.clock.carry

end Z80

end ConsoleBoard
