/-
A snapshot holds all that the future of a processor depends on.

# Lossless

A snapshot is a record of plain numbers, and restoring fits each into its
range, so something could be lost on either way. Nothing is, for three
reasons: pairs and flags are two views of the same bits; the spare status
bits of a processor are spare ones (`Cpu.Spare`, kept by all that a host can
do), so they mask nothing in the status byte; and the carry of a processor
is not positive unless its host gave time back. `cpu_snapshot` and
`carry_nonpos` put this to use.

# Alike

What a restore does not bring over are the counters of the last run and the
total. They are written by runs and steps, and nothing but the host reads
them. So two processors with the same core and the same carry (`Alike`)
answer every operation alike, reach the host by the same accesses and are
alike behind it (`Alike.perform`); a reset makes them equal.
-/
import ConsoleBoard.Proofs.Z80.Reachable

namespace ConsoleBoard.Z80

open Bench (Access)

variable {σ β : Type}

-- ========================================================= the status byte

namespace Status

/-- Masking distributes over joining. -/
private theorem or_and (a b m : UInt8) :
    (a ||| b) &&& m = a &&& m ||| b &&& m := by
  apply UInt8.toNat_inj.1
  simp only [UInt8.toNat_and, UInt8.toNat_or]
  exact Nat.and_or_distrib_right _ _ _

/-- A status has a bit if one of its two parts has. -/
private theorem has_or (a b m : UInt8) :
    (Status.mk (a ||| b)).has m
      = ((Status.mk a).has m || (Status.mk b).has m) := by
  unfold has
  rw [or_and, Bool.eq_iff_iff]
  simp only [bne_iff_ne, Bool.or_eq_true, ne_eq, UInt8.or_eq_zero_iff]
  exact Decidable.not_and_iff_not_or_not

/-- A bit that is set on a condition shows when the condition holds and the mask
has it. -/
theorem has_ite (c : Bool) (bit m : UInt8) :
    (Status.mk (if c then bit else 0)).has m
      = (c && (Status.mk bit).has m) := by
  cases c with
  | true => rfl
  | false => simp [has]

end Status

/-- The status bits kept from a snapshot are bits without a name. -/
def Cpu.Spare (cpu : Cpu) : Prop :=
  cpu.spareStatus &&& Status.spareMask = cpu.spareStatus

namespace Cpu.Spare

open Status

variable {cpu : Cpu}

/-- Under a mask of named bits the status shows the conditions and nothing
else. -/
theorem has_status (h : cpu.Spare) {m : UInt8} (hm : spareMask &&& m = 0) :
    cpu.status.has m
      = (cpu.irqPending && (Status.mk hasInt).has m || cpu.nmiPending
        && (Status.mk hasNmi).has m
        || cpu.halted && (Status.mk Status.halted).has m
        || cpu.faulted && (Status.mk Status.faulted).has m) := by
  have hnone : (Status.mk cpu.spareStatus).has m = false := by
    unfold has
    rw [← show _ = _ from h, UInt8.and_assoc, hm, UInt8.and_zero]
    rfl
  unfold status
  simp only [has_or, has_ite, hnone, Bool.false_or]

/-- Each named bit is one of the four, so it shows its own condition. -/
theorem has_hasInt (h : cpu.Spare) :
    cpu.status.has hasInt = cpu.irqPending := by
  rw [h.has_status rfl]
  show (cpu.irqPending && true || cpu.nmiPending && false || cpu.halted && false
    || cpu.faulted && false) = _
  simp

private theorem has_hasNmi (h : cpu.Spare) :
    cpu.status.has hasNmi = cpu.nmiPending := by
  rw [h.has_status rfl]
  show (cpu.irqPending && false || cpu.nmiPending && true || cpu.halted && false
    || cpu.faulted && false) = _
  simp

private theorem has_halted (h : cpu.Spare) :
    cpu.status.has Status.halted = cpu.halted := by
  rw [h.has_status rfl]
  show (cpu.irqPending && false || cpu.nmiPending && false || cpu.halted && true
    || cpu.faulted && false) = _
  simp

private theorem has_faulted (h : cpu.Spare) :
    cpu.status.has Status.faulted = cpu.faulted := by
  rw [h.has_status rfl]
  show (cpu.irqPending && false || cpu.nmiPending && false
    || cpu.halted && false
    || cpu.faulted && true) = _
  simp

/-- The spare bits of the status are the spare status. -/
private theorem status_and_spareMask (h : cpu.Spare) :
    cpu.status.bits &&& spareMask = cpu.spareStatus := by
  have hnone : ∀ (c : Bool) {bit : UInt8}, bit &&& spareMask = 0 →
      (if c then bit else 0) &&& spareMask = 0 := by
    intro c bit hbit
    cases c with
    | true => exact hbit
    | false => exact UInt8.zero_and
  simp only [status, or_and]
  rw [hnone _ rfl, hnone _ rfl, hnone _ rfl, hnone _ rfl, h]
  simp only [UInt8.or_zero]

end Cpu.Spare

-- ================================================================ lossless

/-- Restoring the snapshot of a core gives the core. -/
theorem cpu_snapshot {z : Z80} (h : z.cpu.Spare) : z.snapshot.cpu = z.cpu := by
  have hregs : z.snapshot.registers = z.cpu.regs := by
    simp [Snapshot.registers, snapshot, Registers.af, Registers.af2]
  have himode : InterruptMode.ofNumber (UInt8.ofNat z.cpu.im.number).toNat
      = z.cpu.im := by
    cases z.cpu.im <;> rfl
  unfold Snapshot.cpu
  rw [hregs]
  unfold snapshot
  dsimp only
  rw [himode, h.has_hasInt, h.has_hasNmi, h.has_halted, h.has_faulted,
    h.status_and_spareMask]

/-- A carry that a 32-bit number can hold and that is no time given back comes
through unchanged. -/
theorem carry_restore {z other : Z80} (hleast : -2147483648 ≤ z.clock.carry)
    (hmost : z.clock.carry ≤ 0) :
    (other.restore z.snapshot).clock.carry = z.clock.carry := by
  show min (reported z.clock.carry) 0 = _
  unfold reported
  omega

-- ====================================================== reached processors

/-- Every turn keeps the spare status to bits without a name. -/
private theorem spare_turns : KeptByTurns Cpu.Spare := by
  intro σ bus cpu host request used after host' hturn h
  cases hturn with
  | run _ _ _ hlines =>
      have hspare : after.spareStatus = cpu.spareStatus :=
        congrArg Lines.spareStatus hlines
      unfold Cpu.Spare
      rw [hspare]
      exact h
  | nmi | restart | vectored | rest => exact h

private theorem spare_set (c : CoreCall) {cpu : Cpu} (h : cpu.Spare) :
    (c.apply cpu).Spare := by
  cases c <;> exact h

/-- A loaded snapshot keeps its spare status to bits without a name. -/
private theorem spare_snapshot (s : Snapshot) : s.cpu.Spare := by
  show s.status.bits &&& Status.spareMask &&& Status.spareMask
    = s.status.bits &&& Status.spareMask
  rw [UInt8.and_assoc, UInt8.and_self]

/-- The spare status of a reachable core is bits without a name. -/
theorem Reachable.spare {Allowed : Operation → Prop} {z : Z80}
    (hz : Reachable Allowed z) :
    z.cpu.Spare := by
  have hstart : Cpu.powerOn.Spare := rfl
  exact hz.keeps hstart spare_turns spare_set (fun s _ => spare_snapshot s)
    fun _ _ => spare_snapshot _

/-- A carry is positive only where time was given back. -/
theorem Reachable.carry_nonpos {z : Z80} (hz : Reachable Operation.IsCharge z) :
    z.clock.carry ≤ 0 := by
  induction hz with
  | start => exact Int.le_refl 0
  | @after z h op hop σ bus host ih =>
      cases op with
      | reset => exact Int.le_refl 0
      | restore s => exact Int.min_le_right _ _
      | call c =>
          cases c with
          | exec cycles =>
              show (exec bus cycles z host).1.2.clock.carry ≤ 0
              cases hf : z.cpu.faulted with
              | true =>
                  rw [exec_faulted bus cycles hf]
                  exact ih
              | false =>
                  rw [exec_running bus cycles hf]
                  exact (spend_remainder bus _ z.cpu host).1
          | step => exact ih
          | addCycles n =>
              have hcharge : 0 ≤ n := hop
              -- time given back is no charge, so `n` is not negative here
              show z.clock.carry - n ≤ 0
              omega
          | core c => exact ih
  | reload => exact Int.min_le_right _ _

-- =================================================================== alike

/-- The same core and the same carry. The counters of the last run and the
total may differ. -/
structure Alike (z z' : Z80) : Prop where
  cpu : z'.cpu = z.cpu
  carry : z'.clock.carry = z.clock.carry

/-- Runs of alike cores stay alike. -/
theorem Alike.exec {z z' : Z80} (h : Alike z z') (bus : Bus σ) (cycles : Int)
    (host : σ) :
    let run := exec bus cycles z host
    let rerun := Z80.exec bus cycles z' host
    rerun.1.1 = run.1.1 ∧ Alike run.1.2 rerun.1.2 ∧ rerun.2 = run.2 := by
  intro run rerun
  cases hf : z.cpu.faulted with
  | true =>
      have hrun : run = _ := exec_faulted bus cycles hf host
      have hrerun : rerun = _ :=
        exec_faulted bus cycles ((congrArg _ h.cpu).trans hf) host
      rw [hrun, hrerun]
      exact ⟨rfl, h, rfl⟩
  | false =>
      have hrun : run = _ := exec_running bus cycles hf host
      have hrerun : rerun = _ :=
        exec_running bus cycles ((congrArg _ h.cpu).trans hf) host
      dsimp only at hrun hrerun
      rw [h.cpu, h.carry] at hrerun
      rw [hrun, hrerun]
      exact ⟨rfl, ⟨rfl, rfl⟩, rfl⟩

/-- Alike processors answer an operation alike, take the host to the same state
and are alike behind it. -/
theorem Alike.perform {z z' : Z80} (h : Alike z z') (op : Operation)
    (bus : Bus σ) (host : σ) :
    let run := op.perform bus z host
    let rerun := op.perform bus z' host
    rerun.1.1 = run.1.1 ∧ Alike run.1.2 rerun.1.2 ∧ rerun.2 = run.2 := by
  cases op with
  | reset => exact ⟨rfl, ⟨rfl, rfl⟩, rfl⟩
  | restore s => exact ⟨rfl, ⟨rfl, rfl⟩, rfl⟩
  | call c =>
      cases c with
      | exec cycles =>
          obtain ⟨hleft, halike, hhost⟩ := h.exec bus cycles host
          exact ⟨congrArg some hleft, halike, hhost⟩
      | step =>
          intro run rerun
          have hrun : run = ((some ((step bus z.cpu host).1.1 : Int), _), _) :=
            rfl
          have hrerun : rerun
              = ((some ((step bus z'.cpu host).1.1 : Int), _), _) := rfl
          rw [h.cpu] at hrerun
          rw [hrun, hrerun]
          exact ⟨rfl, ⟨rfl, h.carry⟩, rfl⟩
      | addCycles n => exact ⟨rfl, ⟨h.cpu, congrArg (· - n) h.carry⟩, rfl⟩
      | core c => exact ⟨rfl, ⟨congrArg c.apply h.cpu, h.carry⟩, rfl⟩

/-- So do they over any sequence of operations, and from a reset on nothing
tells them apart. -/
theorem Alike.performAll {z z' : Z80} (h : Alike z z') (bus : Bus σ)
    (ops : List Operation) (host : σ) :
    let run := performAll bus ops z host
    let rerun := Z80.performAll bus ops z' host
    rerun.1.1 = run.1.1 ∧ Alike run.1.2 rerun.1.2 ∧ rerun.2 = run.2
      ∧ (Operation.reset ∈ ops → rerun.1.2 = run.1.2) := by
  induction ops generalizing z z' host with
  | nil => exact ⟨rfl, h, rfl, nofun⟩
  | cons op rest ih =>
      obtain ⟨hresult, halike, hhost⟩ := h.perform op bus host
      obtain ⟨hresults, hend, hhosts, hreset⟩ :=
        ih halike (op.perform bus z host).2
      simp only [performAll_cons]
      rw [hhost, hresult, hresults, hhosts]
      refine ⟨rfl, hend, rfl, fun hmem => ?_⟩
      cases hmem with
      | head => rfl
      | tail _ hlater => exact hreset hlater

-- ============================================================= the theorem

/-- A snapshot holds all that the future depends on. Take a processor reached
from a reset by any operations that give no time back, with a carry that a
32-bit number can hold, and restore its snapshot into any other. The other
one's snapshot is then the same record; and wired to the same parts, the two
return the same from every further sequence of operations, end in the same
core with the same carry, and have made the same accesses. Since the sequence
is any one, this holds after each operation of it. Only the counters of time
may differ, and from the next reset on they agree as well. -/
theorem restore_snapshot_alike {z : Z80} (hz : Reachable Operation.IsCharge z)
    (hcarry : -2147483648 ≤ z.clock.carry) (other : Z80) :
    let copy := other.restore z.snapshot
    copy.snapshot = z.snapshot
    ∧ ∀ {σ β : Type} (parts : Parts σ β) (host : σ) (log : List Access)
        (ops : List Operation),
      let bus := parts.recorded.bus
      let run := performAll bus ops z (host, log)
      let rerun := performAll bus ops copy (host, log)
      rerun.1.1 = run.1.1
        ∧ rerun.1.2.cpu = run.1.2.cpu
        ∧ rerun.1.2.clock.carry = run.1.2.clock.carry
        ∧ rerun.2 = run.2
        ∧ (Operation.reset ∈ ops → rerun.1.2 = run.1.2) := by
  intro copy
  have halike : Alike z copy :=
    ⟨cpu_snapshot hz.spare, carry_restore hcarry hz.carry_nonpos⟩
  refine ⟨?_, fun parts host log ops => ?_⟩
  · have hcopy : copy.snapshot = z.snapshot := by
      unfold snapshot carriedCycles
      rw [halike.cpu, halike.carry]
    exact hcopy
  · obtain ⟨hresults, hend, hhost, hreset⟩ :=
      halike.performAll parts.recorded.bus ops (host, log)
    exact ⟨hresults, hend.cpu, hend.carry, hhost, hreset⟩

/-- A processor that took the RST 38h of an open bus, was charged ten T-states
and has an NMI to take, restored into one that had halted. -/
theorem restore_snapshot_alike_openBus :
    let stepped := ((Operation.call .step).perform openBus.bus {} ()).1.2
    let charged :=
      ((Operation.call (.addCycles 10)).perform openBus.bus stepped ()).1.2
    let z := ((Operation.call (.core .requestNmi)).perform openBus.bus
      charged ()).1.2
    let halted : Z80 := { cpu := { Cpu.powerOn with halted := true } }
    let copy := halted.restore z.snapshot
    Reachable Operation.IsCharge z ∧ -2147483648 ≤ z.clock.carry
      ∧ copy.snapshot = z.snapshot
      ∧ (performAll openBus.recorded.bus [.call (.exec 100), .call .step] copy
        ((), [])).2
          = (performAll openBus.recorded.bus [.call (.exec 100), .call .step] z
            ((), [])).2 := by
  intro stepped charged z halted copy
  have hstep : (Operation.call .step).IsCharge := trivial
  have hcharge : (Operation.call (.addCycles 10)).IsCharge :=
    show (0 : Int) ≤ 10 by decide
  have hrequest : (Operation.call (.core .requestNmi)).IsCharge := trivial
  have hz : Reachable Operation.IsCharge z :=
    .after (.after (.after .start hstep openBus.bus ()) hcharge openBus.bus ())
      hrequest openBus.bus ()
  have hcarry : -2147483648 ≤ z.clock.carry :=
    show (-2147483648 : Int) ≤ -10 by decide
  obtain ⟨hsnapshot, halike⟩ := restore_snapshot_alike hz hcarry halted
  obtain ⟨-, -, -, haccesses, -⟩ :=
    halike openBus () [] [.call (.exec 100), .call .step]
  exact ⟨hz, hcarry, hsnapshot, haccesses⟩

end ConsoleBoard.Z80
