/-
The run loop: what `spend` does with a budget, for every bus.

# Sleep

A core that has halted with nothing to wake it (`Cpu.asleep`) stays so by
itself: one refresh cycle changes R and nothing else. The loop therefore
burns the rest of its budget at once, and every fact about the loop has
to show that this one jump is the refresh cycles taken one by one. Both
sides are `Cpu.refreshed n`, and `refreshed_refreshed` adds them up.

# The loop

`spend` is opened by three equations (`spend_done`, `spend_asleep`,
`spend_awake`), one for each way through its body; the facts below use
these and the recursion of `spend` itself. They are

- the remainder: zero or negative, and not below -22 unless the budget
  was (`spend_remainder`);
- the split: a run, then a run on what it left and something more, is one
  run of the sum (`spend_spend`);
- the passes: the loop is its body taken again and again, and ends after
  a quarter of the budget (`spend_eq_passes`).
-/
import ConsoleBoard.Proofs.Z80.Step
import ConsoleBoard.Z80.Run
import Mathlib.Logic.Function.Iterate

namespace ConsoleBoard.Z80

variable {σ : Type}

-- =================================================================== sleep

/-- The core has halted, and no request that it could take is pending. -/
def Cpu.asleep (cpu : Cpu) : Bool := cpu.halted && cpu.acceptable.isNone

/-- R counts in its low seven bits. -/
theorem toNat_refresh (r : UInt8) (n : Nat) :
    (Registers.refresh r n).toNat = r.toNat / 128 * 128
      + (r.toNat + n) % 128 := by
  have hr := r.toNat_lt
  have hn : (r.toNat + n) % 128 < 128 := Nat.mod_lt _ (by decide)
  simp only [Registers.refresh, UInt8.toNat_add, UInt8.toNat_mul,
    UInt8.toNat_div, UInt8.toNat_ofNat', UInt8.reduceToNat]
  omega

/-- Refresh cycles add up. -/
theorem refresh_refresh (r : UInt8) (m n : Nat) :
    Registers.refresh (Registers.refresh r m) n
      = Registers.refresh r (m + n) := by
  apply UInt8.toNat_inj.1
  rw [toNat_refresh, toNat_refresh, toNat_refresh]
  have hr := r.toNat_lt
  omega

/-- Without a refresh R is as it was. -/
theorem refresh_zero (r : UInt8) : Registers.refresh r 0 = r := by
  apply UInt8.toNat_inj.1
  rw [toNat_refresh]
  omega

/-- Without a refresh cycle the core is as it was. -/
@[simp] theorem refreshed_zero (cpu : Cpu) : cpu.refreshed 0 = cpu := by
  unfold Cpu.refreshed
  rw [refresh_zero]

/-- Refresh cycles add up. -/
theorem refreshed_refreshed (cpu : Cpu) (m n : Nat) :
    (cpu.refreshed m).refreshed n = cpu.refreshed (m + n) := by
  unfold Cpu.refreshed
  rw [refresh_refresh]

/-- A refresh cycle wakes nothing. -/
@[simp] theorem asleep_refreshed (cpu : Cpu) (n : Nat) :
    (cpu.refreshed n).asleep = cpu.asleep := rfl

/-- A sleeping core steps by one refresh cycle. -/
theorem step_asleep {cpu : Cpu} (h : cpu.asleep = true) (bus : Bus σ)
    (host : σ) :
    step bus cpu host = ((haltCost, cpu.refreshed 1), host) := by
  unfold Cpu.asleep at h
  simp only [Bool.and_eq_true, Option.isNone_iff_eq_none] at h
  obtain ⟨hhalted, hnone⟩ := h
  rw [step_eq, hnone]
  exact if_pos hhalted

/-- The burnt refresh cycles cover the budget, with less than one cycle
too many. -/
theorem haltCycles_bounds {left : Int} (h : 0 < left) :
    left ≤ 4 * haltCycles left ∧ (4 * haltCycles left : Int) < left + 4 := by
  unfold haltCycles
  omega

-- ===================================================== the three equations

theorem spend_done {left : Int} (h : left ≤ 0) (bus : Bus σ) (cpu : Cpu)
    (host : σ) :
    spend bus left cpu host = ((left, cpu), host) := by
  rw [spend, if_neg (by omega)]

/-- A sleeping core spends its budget in refresh cycles. -/
theorem spend_asleep {left : Int} {cpu : Cpu} (h : 0 < left)
    (hs : cpu.asleep = true) (bus : Bus σ) (host : σ) :
    spend bus left cpu host
      = ((left - 4 * haltCycles left, cpu.refreshed (haltCycles left)),
        host) := by
  have hs' : (cpu.halted && cpu.acceptable.isNone) = true := hs
  rw [spend, if_pos h, if_pos hs']
  rfl

/-- A core that is awake spends its budget step by step. -/
theorem spend_awake {left : Int} {cpu : Cpu} (h : 0 < left)
    (hs : cpu.asleep = false) (bus : Bus σ) (host : σ) :
    spend bus left cpu host
      = spend bus (left - (step bus cpu host).1.1) (step bus cpu host).1.2
          (step bus cpu host).2 := by
  have hs' : ¬(cpu.halted && cpu.acceptable.isNone) = true :=
    Bool.eq_false_iff.1 hs
  rw [spend, if_pos h, if_neg hs']
  rfl

/-- The recursion of `spend`, in the words of its three equations. -/
@[elab_as_elim]
theorem spend_cases (bus : Bus σ) {motive : Int → Cpu → σ → Prop}
    (done : ∀ left cpu host, left ≤ 0 → motive left cpu host)
    (asleep : ∀ left cpu host, 0 < left → cpu.asleep = true →
      motive left cpu host)
    (awake : ∀ left cpu host, 0 < left → cpu.asleep = false →
      motive (left - (step bus cpu host).1.1) (step bus cpu host).1.2
        (step bus cpu host).2 → motive left cpu host)
    (left : Int) (cpu : Cpu) (host : σ) : motive left cpu host := by
  induction left, cpu, host using spend.induct bus with
  | case1 left cpu host h hs => exact asleep left cpu host h hs
  | case2 left cpu host h hs used after host' hstep ih =>
      refine awake left cpu host h (Bool.eq_false_iff.2 hs) ?_
      rw [hstep]
      exact ih
  | case3 left cpu host h => exact done left cpu host (by omega)

-- =========================================================== the remainder

/-- A budget that is used up leaves at least -22: the last step started
with something left, and took 23 T-states at most. -/
theorem spend_remainder (bus : Bus σ) (left : Int) (cpu : Cpu) (host : σ) :
    (spend bus left cpu host).1.1 ≤ 0
      ∧ (0 < left → -22 ≤ (spend bus left cpu host).1.1) := by
  induction left, cpu, host using spend_cases bus with
  | done left cpu host h =>
      rw [spend_done h]
      exact ⟨h, fun h' => absurd h (by omega)⟩
  | asleep left cpu host h hs =>
      rw [spend_asleep h hs]
      have hcover := haltCycles_bounds h
      dsimp only
      omega
  | awake left cpu host h hs ih =>
      rw [spend_awake h hs]
      have hused := charges_step bus cpu host
      refine ⟨ih.1, fun _ => ?_⟩
      by_cases hmore : 0 < left - (step bus cpu host).1.1
      · exact ih.2 hmore
      · rw [spend_done (by omega)]
        dsimp only
        omega

/-- What is left never exceeds the budget. -/
theorem spend_le (bus : Bus σ) (left : Int) (cpu : Cpu) (host : σ) :
    (spend bus left cpu host).1.1 ≤ left := by
  by_cases h : 0 < left
  · have := (spend_remainder bus left cpu host).1
    omega
  · have hdone := spend_done (Int.not_lt.1 h) bus cpu host
    exact Int.le_of_eq (congrArg (·.1.1) hdone)

/-- A run neither faults a core nor brings one back. -/
theorem faulted_spend (bus : Bus σ) (left : Int) (cpu : Cpu) (host : σ) :
    (spend bus left cpu host).1.2.faulted = cpu.faulted := by
  induction left, cpu, host using spend_cases bus with
  | done left cpu host h => rw [spend_done h]
  | asleep left cpu host h hs => rw [spend_asleep h hs]; rfl
  | awake left cpu host h hs ih =>
      rw [spend_awake h hs, ih]
      exact faulted_step bus cpu host

-- =============================================================== the split

/-- Burning `left` and then, from the overshoot, `extra` more is burning
the sum. -/
theorem haltCycles_add {left extra : Int} (h : 0 < left) (hextra : 0 ≤ extra) :
    haltCycles (left + extra)
      = haltCycles left + haltCycles (left - 4 * haltCycles left + extra) := by
  have hcover := haltCycles_bounds h
  unfold haltCycles at *
  omega

/-- A run, then a run on what it left and `extra` more, is one run of the
sum. What the first run overshoots is charged to the second, so it does
not matter where the first one stopped: before a step, after one that
overshot, or in the middle of a sleep. -/
theorem spend_spend (bus : Bus σ) {extra : Int} (hextra : 0 ≤ extra)
    (left : Int) (cpu : Cpu) (host : σ) :
    spend bus ((spend bus left cpu host).1.1 + extra)
        (spend bus left cpu host).1.2 (spend bus left cpu host).2
      = spend bus (left + extra) cpu host := by
  induction left, cpu, host using spend_cases bus with
  | done left cpu host h => rw [spend_done h]
  | asleep left cpu host h hs =>
      have hsum : 0 < left + extra := by omega
      rw [spend_asleep h hs, spend_asleep hsum hs, haltCycles_add h hextra]
      dsimp only
      -- the second run may find the core asleep still, or nothing left for it
      by_cases hrest : 0 < left - 4 * haltCycles left + extra
      · rw [spend_asleep hrest (by rw [asleep_refreshed, hs]),
          refreshed_refreshed]
        congr 2
        omega
      · -- the overshoot of the first burn covers all of `extra`
        have hnone : haltCycles (left - 4 * haltCycles left + extra) = 0 := by
          generalize left - 4 * haltCycles left + extra = rest at hrest
          unfold haltCycles
          omega
        rw [spend_done (by omega), hnone]
        congr 2
        omega
  | awake left cpu host h hs ih =>
      have hsum : 0 < left + extra := by omega
      rw [spend_awake h hs, ih, spend_awake hsum hs]
      congr 1
      omega

/-- A run with something left is a step, then a run of what the step leaves,
also when the core sleeps and the loop would burn its cycles at once. -/
theorem spend_step {left : Int} (h : 0 < left) (bus : Bus σ) (cpu : Cpu)
    (host : σ) :
    spend bus left cpu host
      = spend bus (left - (step bus cpu host).1.1) (step bus cpu host).1.2
          (step bus cpu host).2 := by
  cases hs : cpu.asleep with
  | false => exact spend_awake h hs bus host
  | true =>
      -- a budget of one T-state burns one cycle, and the rest is a run on its
      -- overshoot
      have hone : spend bus 1 cpu host = ((-3, cpu.refreshed 1), host) :=
        spend_asleep (by decide) hs bus host
      have hsplit := spend_spend bus (show 0 ≤ left - 1 by omega) 1 cpu host
      have hleft : 1 + (left - 1) = left := by omega
      have hrest : -3 + (left - 1) = left - haltCost := by
        unfold haltCost; omega
      rw [hone, hleft, hrest] at hsplit
      rw [step_asleep hs]
      exact hsplit.symm

-- ============================================================== the passes

/-- One pass of the run loop over what is left of the budget, the core and
the host: a sleeping core burns all of it, any other takes a step. -/
def pass (bus : Bus σ) : (Int × Cpu) × σ → (Int × Cpu) × σ
  | ((left, cpu), host) =>
      if cpu.asleep then
        ((left - 4 * haltCycles left, cpu.refreshed (haltCycles left)), host)
      else
        ((left - (step bus cpu host).1.1, (step bus cpu host).1.2),
          (step bus cpu host).2)

/-- The loop is its pass taken while something is left, and each pass uses
four T-states of the budget or the rest of it, so a quarter of the budget
bounds their number. -/
theorem spend_eq_passes (bus : Bus σ) (left : Int) (cpu : Cpu) (host : σ) :
    ∃ n ≤ haltCycles left,
      (∀ k < n, 0 < ((pass bus)^[k] ((left, cpu), host)).1.1)
        ∧ ((pass bus)^[n] ((left, cpu), host)).1.1 ≤ 0
        ∧ spend bus left cpu host = (pass bus)^[n] ((left, cpu), host) := by
  induction left, cpu, host using spend_cases bus with
  | done left cpu host h =>
      exact ⟨0, Nat.zero_le _, fun k hk => absurd hk (Nat.not_lt_zero k), h,
        spend_done h bus cpu host⟩
  -- a burn ends the loop: one pass
  | asleep left cpu host h hs =>
      have hcover := haltCycles_bounds h
      have hpass : pass bus ((left, cpu), host)
          = ((left - 4 * haltCycles left, cpu.refreshed (haltCycles left)),
            host) :=
        if_pos hs
      refine ⟨1, by omega, fun k hk => ?_, ?_, ?_⟩
      · have hk0 : k = 0 := by omega
        subst hk0
        exact h
      · rw [Function.iterate_one, hpass]
        dsimp only
        omega
      · rw [Function.iterate_one, hpass]
        exact spend_asleep h hs bus host
  | awake left cpu host h hs ih =>
      obtain ⟨n, hn, hbefore, hafter, heq⟩ := ih
      have hused := four_le_step bus cpu host
      have hpass : pass bus ((left, cpu), host)
          = ((left - (step bus cpu host).1.1, (step bus cpu host).1.2),
              (step bus cpu host).2) :=
        if_neg (Bool.eq_false_iff.1 hs)
      refine ⟨n + 1, ?_, fun k hk => ?_, ?_, ?_⟩
      · unfold haltCycles at *
        omega
      · cases k with
        | zero => exact h
        | succ k =>
            rw [Function.iterate_succ_apply, hpass]
            exact hbefore k (by omega)
      · rw [Function.iterate_succ_apply, hpass]
        exact hafter
      · rw [Function.iterate_succ_apply, hpass, spend_awake h hs]
        exact heq

end ConsoleBoard.Z80
