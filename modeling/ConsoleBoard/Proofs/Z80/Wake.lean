/-
A halted core can always be woken.

While a core is halted no instruction runs, so a shadow that was set then
would never be cleared, and would hold every interrupt off for good. That
it cannot be set is an invariant of every reachable processor
(`Reachable.wakeable`): an instruction that halts has cleared the shadows
first (`wakeable_instruction`), an interrupt that is taken ends the halt,
and of what a host does only a restore reaches the shadows, with those of
a processor that was reached itself.

In a halted core the lines and IFF1 alone then say which interrupt is
taken (`Cpu.due`), so neither a step nor a run can pass it over.
-/
import ConsoleBoard.Proofs.Z80.Control
import ConsoleBoard.Proofs.Z80.Restore

namespace ConsoleBoard.Z80

variable {σ : Type}

-- =========================================================== the invariant

/-- Every turn leaves a core that can wake. -/
private theorem wakeable_turns : KeptByTurns Cpu.Wakeable := by
  intro σ bus cpu host request used after host' hturn h
  cases hturn with
  | nmi | restart | vectored => exact fun hhalted => absurd hhalted nofun
  | rest => exact h
  | run hnone hawake hrun =>
      have hafter := wakeable_instruction bus hawake host
      rw [hrun] at hafter
      exact hafter

private theorem wakeable_set (c : CoreCall) {cpu : Cpu} (h : cpu.Wakeable) :
    (c.apply cpu).Wakeable := by
  cases c
  case softReset => exact fun _ => ⟨rfl, rfl⟩
  all_goals exact h

/-- No processor is halted in a shadow, unless it was restored from a record
that says so and that no processor gave. -/
theorem Reachable.wakeable {z : Z80} (hz : Reachable Operation.IsOwn z) :
    z.cpu.Wakeable := by
  have hstart : Cpu.powerOn.Wakeable := fun hhalted => absurd hhalted nofun
  refine hz.keeps hstart wakeable_turns wakeable_set
    (fun s hown => hown.elim) ?_
  intro z' hz' hwake
  -- the snapshot gives the core that it was taken from
  rw [cpu_snapshot hz'.spare]
  exact hwake

-- ============================================================= what is due

/-- The interrupt that the lines and IFF1 ask for, whatever the shadows
say. -/
def Cpu.due (cpu : Cpu) : Option Interrupt :=
  if cpu.nmiPending then some .nmi
  else if cpu.irqPending && cpu.iff1 then some .irq
  else none

namespace Cpu.Wakeable

variable {cpu : Cpu}

/-- A halted core takes what is due. -/
theorem acceptable_eq_due (h : cpu.Wakeable) (hhalted : cpu.halted = true) :
    cpu.acceptable = cpu.due := by
  obtain ⟨hei, hprefix⟩ := h hhalted
  unfold acceptable due
  rw [hei, hprefix]
  simp

/-- So it sleeps only while nothing is due. -/
theorem due_of_asleep (h : cpu.Wakeable) (hasleep : cpu.asleep = true) :
    cpu.due = none := by
  obtain ⟨hhalted, hnone⟩ := Bool.and_eq_true_iff.1 hasleep
  rw [← h.acceptable_eq_due hhalted]
  exact Option.isNone_iff_eq_none.1 hnone

end Cpu.Wakeable

/-- An interrupt that is taken ends a halt. -/
theorem Turn.awake {bus : Bus σ} {cpu : Cpu} {host : σ} {request : Interrupt}
    {used : Nat} {after : Cpu} {host' : σ}
    (h : Turn bus cpu host (some request) used after host') :
    after.halted = false := by
  cases h <;> rfl

/-- No pass of a run leads to a core that is halted in a shadow. -/
theorem wakeable_pass (bus : Bus σ) {place : (Int × Cpu) × σ}
    (h : place.1.2.Wakeable) :
    (pass bus place).1.2.Wakeable := by
  obtain ⟨⟨left, cpu⟩, host⟩ := place
  unfold pass
  dsimp only
  split
  · exact h
  · exact wakeable_turns (turn_step bus cpu host) h

/-- Any number of passes leaves a core that can wake. -/
private theorem wakeable_passes (bus : Bus σ) (n : Nat)
    {place : (Int × Cpu) × σ} (h : place.1.2.Wakeable) :
    ((pass bus)^[n] place).1.2.Wakeable := by
  induction n generalizing place with
  | zero => exact h
  | succ n ih => exact ih (wakeable_pass bus h)

-- ============================================================= the theorem

/-- A halted core can always be woken. No processor that a host can reach is
halted in a shadow. So whatever is due in a halted one, a step takes it,
which ends the halt; a run that has something left takes it first and goes
on as a run of the rest from there. Nor is it passed over later on: every
run is passes, and none of them burns time in sleep while something is
due. -/
theorem halted_can_wake {z : Z80} (hz : Reachable Operation.IsOwn z) :
    (z.cpu.halted = true → z.cpu.eiShadow = false ∧ z.cpu.prefixShadow = false)
    ∧ ∀ {σ : Type} (bus : Bus σ) (host : σ),
      (∀ request, z.cpu.halted = true → z.cpu.due = some request →
        let one := stepOnce bus z host
        Turn bus z.cpu host (some request) one.1.1 one.1.2.cpu one.2
          ∧ one.1.2.cpu.halted = false
          ∧ ∀ cycles, z.cpu.faulted = false → 0 < cycles + z.clock.carry →
            let run := exec bus cycles z host
            let rest := exec bus (cycles - one.1.1) one.1.2 one.2
            (∃ later, taken bus (cycles + z.clock.carry) z.cpu host
              = request :: later)
              ∧ run.1.1 = rest.1.1
              ∧ run.1.2.cpu = rest.1.2.cpu
              ∧ run.1.2.clock.total = rest.1.2.clock.total
              ∧ run.1.2.clock.carry = rest.1.2.clock.carry
              ∧ run.1.2.clock.left = rest.1.2.clock.left
              ∧ run.2 = rest.2)
      ∧ ∀ cycles, z.cpu.faulted = false →
        let run := exec bus cycles z host
        let passed :=
          fun n => (pass bus)^[n] ((cycles + z.clock.carry, z.cpu), host)
        (∃ n, ((run.1.2.clock.left, run.1.2.cpu), run.2) = passed n)
          ∧ ∀ n, (passed n).1.2.asleep = true → (passed n).1.2.due = none := by
  have hwake := hz.wakeable
  refine ⟨hwake,
    fun bus host => ⟨fun request hhalted hdue => ?_, fun cycles hrun => ?_⟩⟩
  · -- no shadow, so what is due is what is acceptable
    have haccepts : z.cpu.acceptable = some request :=
      (hwake.acceptable_eq_due hhalted).trans hdue
    have hturn := turn_step bus z.cpu host
    rw [haccepts] at hturn
    refine ⟨hturn, hturn.awake,
      fun cycles hrun hsome => ⟨?_, exec_step bus hrun hsome host⟩⟩
    rw [taken_step hsome, haccepts]
    exact ⟨_, rfl⟩
  · obtain ⟨n, -, -, -, hpassed⟩ :=
      spend_eq_passes bus (cycles + z.clock.carry) z.cpu host
    refine ⟨⟨n, ?_⟩,
      fun n hasleep => (wakeable_passes bus n hwake).due_of_asleep hasleep⟩
    rw [exec_running bus cycles hrun]
    exact hpassed

/-- A memory of HALT instructions. -/
def haltBus : Bus Unit :=
  { Bus.unconnected with fetch := fun _ host => (0x76, host) }

/-- The core halts at its first step, and an NMI brings it back. -/
theorem halted_can_wake_nmi :
    let stopped := ((Operation.call .step).perform haltBus {} ()).1.2
    let z := ((Operation.call (.core .requestNmi)).perform haltBus
      stopped ()).1.2
    Reachable Operation.IsOwn z ∧ z.cpu.halted = true ∧ z.cpu.due = some .nmi
      ∧ (stepOnce haltBus z ()).1.2.cpu.halted = false
      ∧ z.cpu.faulted = false ∧ 0 < 1 + z.clock.carry
      ∧ ∃ later, taken haltBus (1 + z.clock.carry) z.cpu ()
        = .nmi :: later := by
  intro stopped z
  have hstep : (Operation.call .step).IsOwn := trivial
  have hrequest : (Operation.call (.core .requestNmi)).IsOwn := trivial
  have hz : Reachable Operation.IsOwn z :=
    .after (.after .start hstep haltBus ()) hrequest haltBus ()
  obtain ⟨-, hwakes⟩ := halted_can_wake hz
  obtain ⟨htakes, -⟩ := hwakes haltBus ()
  obtain ⟨-, hawake, hruns⟩ := htakes .nmi rfl rfl
  obtain ⟨hlater, -⟩ := hruns 1 rfl (by decide)
  exact ⟨hz, rfl, rfl, hawake, rfl, by decide, hlater⟩

end ConsoleBoard.Z80
