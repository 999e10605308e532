/-
The refresh register counts M1 cycles.

# One boundary

LD R,A apart, no instruction reaches R (`keeps_r_execute`), so what it adds
is its opcode fetches, and these are seen in the two bytes at PC
(`opcodeFetches`): a byte behind CB, ED, DD or FD is one more, unless DD or
FD is held in front of it; displacements and operands are none. An interrupt
taken is one cycle, and so are four T-states of a halted core. The three
together are `Boundary.cycles`, and a step adds them to R (`r_step`).

# A session

A session is its boundaries one after another (`Site.boundaries`): those of
each run, where `spend_step` makes single cycles of the burn of a sleeping
core, and the one of each single step. What the host does in between is
free, except to set R itself. Each boundary finds the R that the step before
it left (`Trail`), so the cycles add up, and the steps between two places
also account for the time that has passed (`Site.Spans`).
-/
import ConsoleBoard.Proofs.Z80.Prefixed
import ConsoleBoard.Proofs.Z80.Reachable
import ConsoleBoard.Proofs.Z80.Requests
import Mathlib.Algebra.GroupWithZero.Nat

namespace ConsoleBoard.Z80

open Micro

variable {σ : Type}

-- ================================================= what instructions leave

/-- The refresh register of a core. -/
def Cpu.r (cpu : Cpu) : UInt8 := cpu.regs.r

/-- LD R,A is the only instruction that writes R. -/
theorem keeps_r_execute {i : Instruction} (h : i.writes .r = false) :
    Keeps Cpu.r (i.execute : Micro σ Nat) := by
  intro bus cpu host
  have hregs := Registers.agree_of_outside (outside_execute i bus cpu host)
  exact hregs.r h

private theorem keeps_r_perform (lead : Nat) {i : Instruction}
    (h : i.writes .r = false) :
    Keeps Cpu.r (perform lead i : Micro σ Nat) :=
  .bind (keeps_r_execute h) fun _ => .pure _

private theorem keeps_r_indexedBits (x : Index) :
    Keeps Cpu.r (indexedBits x : Micro σ Nat) :=
  (keeps_indexedBits x : Keeps (Cpu.frame fun _ => false) _).of_frame
    fun _ => rfl

-- ================================================================ decoding

/-- LD R,A stands on no page but ED. -/
theorem ofOpcode_writes_r (x : Index) (op : UInt8) :
    (Instruction.ofOpcode x op).writes .r = false := by
  have hall : ∀ n : Fin 256, (Instruction.ofOpcode x (.ofFin n)).writes .r
      = false := by
    cases x <;> decide +kernel
  exact hall op.toFin

/-- The page behind ED writes R in one place. -/
private theorem ofExtendedOpcode_writes_r {op : UInt8} (h : op ≠ 0x4F) :
    (Instruction.ofExtendedOpcode op).writes .r = false := by
  have hall : ∀ n : Fin 256, UInt8.ofFin n ≠ 0x4F →
      (Instruction.ofExtendedOpcode (.ofFin n)).writes .r = false := by
        decide +kernel
  exact hall op.toFin h

-- ========================================================= one instruction

/-- The opcode fetches of an instruction, from its first two bytes. A byte
behind CB or ED is fetched as an opcode, and so is one behind DD or FD,
unless the prefix is held in front of it: then the byte is given back. -/
def opcodeFetches (first second : UInt8) : Nat :=
  if first = 0xCB ∨ first = 0xED then 2
  else if IsPrefix first then (if IsPrefix second ∨ second = 0xED then 1 else 2)
  else 1

/-- What DD or FD adds to R behind its own fetch. -/
theorem r_indexed (x : Index) {bus : Bus σ} {cpu : Cpu} {host host' : σ}
    {op : UInt8} (hfetch : bus.fetch cpu.regs.pc host = (op, host')) :
    (indexed x bus cpu host).1.2.r
      = Registers.refresh cpu.r (if IsPrefix op ∨ op = 0xED then 0 else 1) := by
  by_cases hheld : IsPrefix op ∨ op = 0xED
  · rw [indexed_held x hfetch hheld, if_pos hheld, refresh_zero]
    rfl
  · rw [if_neg hheld]
    unfold indexed
    rw [fetchOpcode_bind hfetch]
    split
    · exact absurd (.inl (.inl rfl)) hheld
    · exact absurd (.inr rfl) hheld
    · exact absurd (.inl (.inr rfl)) hheld
    · exact keeps_r_indexedBits x bus _ host'
    · exact keeps_r_perform _ (ofOpcode_writes_r x op) bus _ host'

/-- A prefixed instruction counts its two opcode bytes. -/
private theorem r_prefixed {x : Index} {bus : Bus σ} {cpu : Cpu}
    {host host' host'' : σ} {first second : UInt8} (hselects : Selects first x)
    (hfirst : bus.fetch cpu.regs.pc host = (first, host'))
    (hsecond : bus.fetch (cpu.regs.pc + 1) host' = (second, host'')) :
    (instruction bus cpu host).1.2.r
      = Registers.refresh cpu.r (opcodeFetches first second) := by
  have hfirst' : bus.fetch cpu.unshadowed.regs.pc host
      = (first, host') := hfirst
  have hsecond' : bus.fetch (cpu.unshadowed.skipped 1).regs.pc host'
      = (second, host'') := hsecond
  have hfetches : 1 + (if IsPrefix second ∨ second = 0xED then 0 else 1)
      = opcodeFetches first second := by
    cases hselects <;> unfold opcodeFetches <;> split <;> rfl
  show ((fetchOpcode >>= dispatch) bus cpu.unshadowed host).1.2.r = _
  rw [fetchOpcode_bind hfirst', hselects.dispatch_eq, r_indexed x hsecond',
    ← hfetches, ← refresh_refresh]
  rfl

/-- An instruction adds its opcode fetches to R, unless it is LD R,A. -/
theorem r_instruction {bus : Bus σ} {cpu : Cpu} {host host' host'' : σ}
    {first second : UInt8}
    (hfirst : bus.fetch cpu.regs.pc host = (first, host'))
    (hsecond : bus.fetch (cpu.regs.pc + 1) host' = (second, host''))
    (h : ¬(first = 0xED ∧ second = 0x4F)) :
    (instruction bus cpu host).1.2.r
      = Registers.refresh cpu.r (opcodeFetches first second) := by
  by_cases hpage : first ∈ pageOpcodes
  · simp only [pageOpcodes, List.mem_cons, List.not_mem_nil, or_false] at hpage
    rcases hpage with rfl | rfl | rfl | rfl
    · rw [instruction_paged rfl hfirst hsecond]
      exact keeps_r_perform _ rfl bus _ host''
    · exact r_prefixed .ix hfirst hsecond
    · rw [instruction_paged rfl hfirst hsecond]
      exact keeps_r_perform _
        (ofExtendedOpcode_writes_r fun hop => h ⟨rfl, hop⟩) bus _ host''
    · exact r_prefixed .iy hfirst hsecond
  · have hone : opcodeFetches first second = 1 := by
      simp only [pageOpcodes, List.mem_cons, List.not_mem_nil, or_false,
        not_or] at hpage
      obtain ⟨hcb, hdd, hed, hfd⟩ := hpage
      have hplain : ¬IsPrefix first := not_or.2 ⟨hdd, hfd⟩
      unfold opcodeFetches
      rw [if_neg (not_or.2 ⟨hcb, hed⟩), if_neg hplain]
    rw [instruction_plain hfirst hpage, hone]
    exact keeps_r_perform _ (ofOpcode_writes_r .hl first) bus _ host'

/-- LD R,A counts its two opcode bytes, and loads A. -/
private theorem r_instruction_storeR {bus : Bus σ} {cpu : Cpu}
    {host host' host'' : σ}
    (hfirst : bus.fetch cpu.regs.pc host = (0xED, host'))
    (hsecond : bus.fetch (cpu.regs.pc + 1) host' = (0x4F, host'')) :
    (instruction bus cpu host).1.2.r = cpu.regs.a := by
  rw [instruction_paged rfl hfirst hsecond]
  rfl

-- ============================================================ one boundary

/-- A place between two instructions, with the bus that is there. -/
structure Boundary (σ : Type) where
  bus : Bus σ
  cpu : Cpu
  host : σ

namespace Boundary

variable (b : Boundary σ)

/-- The step from here. -/
def step : (Nat × Cpu) × σ := Z80.step b.bus b.cpu b.host

/-- The byte at PC. -/
def first : UInt8 := (b.bus.fetch b.cpu.regs.pc b.host).1

/-- The byte behind it. -/
def second : UInt8 :=
  (b.bus.fetch (b.cpu.regs.pc + 1) (b.bus.fetch b.cpu.regs.pc b.host).2).1

/-- An instruction runs here: no interrupt is taken, and the core has not
halted. -/
def Runs : Prop := b.cpu.acceptable = none ∧ b.cpu.halted = false

instance : Decidable b.Runs := inferInstanceAs (Decidable (_ ∧ _))

/-- The instruction is LD R,A. -/
def LoadsR : Prop := b.Runs ∧ b.first = 0xED ∧ b.second = 0x4F

instance : Decidable b.LoadsR := inferInstanceAs (Decidable (_ ∧ _ ∧ _))

def fetches : Nat := if b.Runs then opcodeFetches b.first b.second else 0

def interrupts : Nat := b.cpu.acceptable.toList.length

/-- T-states spent halted. -/
def resting : Nat := if b.cpu.asleep then b.step.1.1 else 0

/-- The M1 cycles of the step from here. -/
def cycles : Nat := b.fetches + b.interrupts + b.resting / 4

variable {b}

/-- An interrupt is one M1 cycle. -/
private theorem cycles_of_accepts {request : Interrupt}
    (h : b.cpu.acceptable = some request) :
    b.cycles = 1 := by
  simp [cycles, fetches, interrupts, resting, Runs, Cpu.asleep, h]

/-- A halted core runs one refresh cycle. -/
theorem step_of_asleep (h : b.cpu.asleep = true) :
    b.step = ((4, b.cpu.refreshed 1), b.host) :=
  step_asleep h b.bus b.host

/-- A refresh cycle is one M1 cycle. -/
private theorem cycles_of_asleep (h : b.cpu.asleep = true) : b.cycles = 1 := by
  have hstate := h
  unfold Cpu.asleep at hstate
  simp only [Bool.and_eq_true, Option.isNone_iff_eq_none] at hstate
  simp [cycles, fetches, interrupts, resting, Runs, h, hstate, step_of_asleep h]

/-- An instruction is as many M1 cycles as it has opcode bytes. -/
private theorem cycles_of_runs (h : b.Runs) :
    b.cycles = opcodeFetches b.first b.second := by
  have hasleep : b.cpu.asleep = false := by simp [Cpu.asleep, h.2]
  simp [cycles, fetches, interrupts, resting, h, h.1, hasleep]

/-- A boundary that runs an instruction steps by it. -/
theorem step_of_runs (h : b.Runs) :
    b.step = instruction b.bus b.cpu b.host := by
  unfold step
  rw [step_eq, h.1, h.2]
  rfl

/-- A step that is not LD R,A adds its M1 cycles to R. -/
theorem r_step (h : ¬b.LoadsR) :
    b.step.1.2.r = Registers.refresh b.cpu.r b.cycles := by
  cases hacceptable : b.cpu.acceptable with
  | some request =>
      have hturn := turn_step b.bus b.cpu b.host
      rw [cycles_of_accepts hacceptable]
      rw [hacceptable] at hturn
      unfold step
      generalize Z80.step b.bus b.cpu b.host = after at hturn
      obtain ⟨⟨used, cpu⟩, host⟩ := after
      cases hturn <;> rfl
  | none =>
      cases hhalted : b.cpu.halted with
      | true =>
          have hasleep : b.cpu.asleep = true := by
            simp [Cpu.asleep, hhalted, hacceptable]
          rw [cycles_of_asleep hasleep, step_of_asleep hasleep]
          rfl
      | false =>
          have hruns : b.Runs := ⟨hacceptable, hhalted⟩
          rw [cycles_of_runs hruns, step_of_runs hruns]
          exact r_instruction rfl rfl fun hbytes => h ⟨hruns, hbytes⟩

/-- LD R,A gives R all eight bits of A. -/
theorem r_step_of_loadsR (h : b.LoadsR) : b.step.1.2.r = b.cpu.regs.a := by
  obtain ⟨hruns, hfirst, hsecond⟩ := h
  rw [step_of_runs hruns]
  exact r_instruction_storeR (Prod.ext hfirst rfl) (Prod.ext hsecond rfl)

end Boundary

-- =============================================================== the trail

/-- R along boundaries: each finds the R that the step before it left. -/
inductive Trail : UInt8 → List (Boundary σ) → UInt8 → Prop
  | done (r : UInt8) : Trail r [] r
  | step {b : Boundary σ} {later : List (Boundary σ)} {r : UInt8}
      (h : Trail b.step.1.2.r later r) : Trail b.cpu.r (b :: later) r

namespace Trail

variable {r r' r'' : UInt8} {passed later : List (Boundary σ)}

theorem append (h : Trail r passed r') (h' : Trail r' later r'') :
    Trail r (passed ++ later) r'' := by
  induction h with
  | done r => exact h'
  | step _ ih => exact .step (ih h')

/-- The trail as far as one of its boundaries. -/
theorem upTo {b : Boundary σ} (h : Trail r (passed ++ b :: later) r') :
    Trail r passed b.cpu.r := by
  induction passed generalizing r with
  | nil => cases h with | step _ => exact .done _
  | cons c rest ih => cases h with | step h => exact .step (ih h)

/-- Without an LD R,A, the M1 cycles add up. -/
theorem refresh (h : Trail r passed r') (hloads : ∀ b ∈ passed, ¬b.LoadsR) :
    r' = Registers.refresh r (passed.map (·.cycles)).sum := by
  induction h with
  | done r => exact (refresh_zero r).symm
  | @step b later r h ih =>
      have hrest := ih fun b' hb' => hloads b' (List.mem_cons_of_mem b hb')
      rw [hrest, b.r_step (hloads b List.mem_cons_self), refresh_refresh]
      rfl

end Trail

-- =================================================================== a run

/-- The boundaries that a run passes. -/
def passed (bus : Bus σ) (left : Int) (cpu : Cpu) (host : σ) :
    List (Boundary σ) :=
  if 0 < left then
    ⟨bus, cpu, host⟩
      :: passed bus (left - (step bus cpu host).1.1) (step bus cpu host).1.2
        (step bus cpu host).2
  else
    []
termination_by left.toNat
decreasing_by
  have hused := four_le_step bus cpu host
  omega

private theorem passed_done {left : Int} (h : left ≤ 0) (bus : Bus σ)
    (cpu : Cpu) (host : σ) :
    passed bus left cpu host = [] := by
  rw [passed, if_neg (by omega)]

/-- What a run passes is its first boundary, and the rest. -/
private theorem passed_step {left : Int} (h : 0 < left) (bus : Bus σ)
    (cpu : Cpu) (host : σ) :
    passed bus left cpu host
      = ⟨bus, cpu, host⟩
        :: passed bus (left - (step bus cpu host).1.1) (step bus cpu host).1.2
          (step bus cpu host).2 := by
  rw [passed, if_pos h]

/-- The boundaries of a run are a trail from its R to the one behind it. -/
private theorem trail_passed (bus : Bus σ) (left : Int) (cpu : Cpu) (host : σ) :
    Trail cpu.r (passed bus left cpu host) (spend bus left cpu host).1.2.r := by
  induction left, cpu, host using run_induction bus with
  | done left cpu host h =>
      rw [passed_done h, spend_done h]
      exact .done _
  | next left cpu host h ih =>
      rw [passed_step h, spend_step h]
      exact .step (b := ⟨bus, cpu, host⟩) ih

/-- The steps from the boundaries of a run take the T-states that it uses. -/
theorem sum_passed (bus : Bus σ) (left : Int) (cpu : Cpu) (host : σ) :
    (((passed bus left cpu host).map (·.step.1.1)).sum : Nat)
      = left - (spend bus left cpu host).1.1 := by
  induction left, cpu, host using run_induction bus with
  | done left cpu host h =>
      rw [passed_done h, spend_done h]
      exact (Int.sub_self left).symm
  | next left cpu host h ih =>
      have hfirst : (⟨bus, cpu, host⟩ : Boundary σ).step
          = step bus cpu host := rfl
      rw [passed_step h, spend_step h, List.map_cons, List.sum_cons, hfirst]
      omega

-- =============================================================== a session

/-- A processor with its bus and its host. -/
structure Site (σ : Type) where
  bus : Bus σ
  z : Z80
  host : σ

/-- The event sets R from outside. -/
def Event.setsR : Event σ → Bool
  | reset | call (.core .softReset) | call (.core (.setRefresh _)) => true
  | _ => false

namespace Site

def after (s : Site σ) : Event σ → Site σ
  | .call c =>
      let done := (Operation.call c).perform s.bus s.z s.host
      { s with z := done.1.2, host := done.2 }
  | .reset => { s with z := s.z.reset }
  | .rewire bus => { s with bus := bus }
  | .outside change => { s with host := change s.host }

def run (s : Site σ) (events : List (Event σ)) : Site σ := events.foldl after s

/-- The boundaries that an event passes: only runs and single steps have any,
and a faulted core runs nothing. -/
def passes (s : Site σ) : Event σ → List (Boundary σ)
  | .call (.exec cycles) =>
      if s.z.cpu.faulted then []
      else passed s.bus (cycles + s.z.clock.carry) s.z.cpu s.host
  | .call .step => [⟨s.bus, s.z.cpu, s.host⟩]
  | _ => []

/-- The boundaries that events pass, one after the other. -/
def boundaries (s : Site σ) : List (Event σ) → List (Boundary σ)
  | [] => []
  | event :: rest => s.passes event ++ (s.after event).boundaries rest

variable {s : Site σ}

/-- Only a call that sets R changes it. -/
private theorem r_apply {c : CoreCall}
    (h : (Event.call (.core c) : Event σ).setsR = false) (cpu : Cpu) :
    (c.apply cpu).r = cpu.r := by
  cases c
  case softReset | setRefresh => cases h
  case setByte name v => cases name <;> rfl
  case setWord name w => cases name <;> rfl
  all_goals rfl

/-- Between two sites lie these boundaries: R is what their trail leads to,
and their steps took the time that has passed. -/
structure Spans (s : Site σ) (passed : List (Boundary σ))
    (s' : Site σ) : Prop where
  trail : Trail s.z.cpu.r passed s'.z.cpu.r
  total : s'.z.clock.total = s.z.clock.total + (passed.map (·.step.1.1)).sum

namespace Spans

variable {s s' s'' : Site σ}

/-- No boundary lies between sites with the same R and the same time. -/
theorem quiet (hr : s'.z.cpu.r = s.z.cpu.r)
    (htotal : s'.z.clock.total = s.z.clock.total) :
    Spans s [] s' := by
  refine ⟨?_, htotal⟩
  rw [hr]
  exact .done _

theorem append {passed later : List (Boundary σ)} (h : Spans s passed s')
    (h' : Spans s' later s'') : Spans s (passed ++ later) s'' := by
  refine ⟨h.trail.append h'.trail, ?_⟩
  rw [h'.total, h.total, List.map_append, List.sum_append, Nat.add_assoc]

end Spans

/-- A run spans its boundaries. -/
private theorem spans_exec (s : Site σ) (cycles : Int) :
    Spans s (s.passes (.call (.exec cycles)))
      (s.after (.call (.exec cycles))) := by
  have hafter : (s.after (.call (.exec cycles))).z
      = (exec s.bus cycles s.z s.host).1.2 := rfl
  cases hf : s.z.cpu.faulted with
  | true =>
      have hpasses : s.passes (.call (.exec cycles)) = [] := if_pos hf
      rw [exec_faulted s.bus cycles hf] at hafter
      rw [hpasses]
      exact .quiet (by rw [hafter]) (by rw [hafter])
  | false =>
      have hpasses : s.passes (.call (.exec cycles))
          = passed s.bus (cycles + s.z.clock.carry) s.z.cpu s.host :=
        if_neg (by rw [hf]; nofun)
      have hsum := sum_passed s.bus (cycles + s.z.clock.carry) s.z.cpu s.host
      rw [exec_running s.bus cycles hf] at hafter
      dsimp only at hafter
      rw [← hsum, Int.toNat_natCast] at hafter
      rw [hpasses]
      constructor
      · rw [hafter]
        exact trail_passed s.bus _ s.z.cpu s.host
      · rw [hafter]

/-- Every event spans the boundaries that it passes. -/
private theorem spans_after {event : Event σ} (h : event.setsR = false) :
    Spans s (s.passes event) (s.after event) := by
  cases event with
  | call c =>
      cases c with
      | exec cycles => exact spans_exec s cycles
      | step => exact ⟨.step (b := ⟨s.bus, s.z.cpu, s.host⟩) (.done _), rfl⟩
      | addCycles n => exact .quiet rfl rfl
      | core c => exact .quiet (r_apply h s.z.cpu) rfl
  | reset => cases h
  | rewire bus => exact .quiet rfl rfl
  | outside change => exact .quiet rfl rfl

/-- A session spans all of its boundaries. -/
private theorem spans_run {events : List (Event σ)}
    (h : ∀ event ∈ events, event.setsR = false) :
    Spans s (s.boundaries events) (s.run events) := by
  induction events generalizing s with
  | nil => exact .quiet rfl rfl
  | cons event rest ih =>
      exact (spans_after (h event List.mem_cons_self)).append
        (ih fun e he => h e (List.mem_cons_of_mem event he))

end Site

-- ================================================================= the law

/-- The M1 cycles of the steps from some boundaries: the opcode fetches, the
interrupts taken, and one for every four T-states spent halted. -/
def m1Cycles (passed : List (Boundary σ)) : Nat :=
  (passed.map (·.fetches)).sum + (passed.map (·.interrupts)).sum
    + (passed.map (·.resting)).sum / 4

/-- The M1 cycles of a session are the sum over its boundaries. -/
private theorem sum_cycles (passed : List (Boundary σ)) :
    (passed.map (·.cycles)).sum = m1Cycles passed := by
  induction passed with
  | nil => simp [m1Cycles]
  | cons b later ih =>
      have hfour : b.resting = 4 * (b.resting / 4) := by
        cases hasleep : b.cpu.asleep with
        | true =>
            simp [Boundary.resting, hasleep, Boundary.step_of_asleep hasleep]
        | false => simp [Boundary.resting, hasleep]
      have hfirst : b.cycles = b.fetches + b.interrupts + b.resting / 4 := rfl
      unfold m1Cycles at *
      simp only [List.map_cons, List.sum_cons]
      omega

/-- R has counted `n` cycles: bit 7 is the same, and the low seven bits have
advanced. -/
def Counted (n : Nat) (r r' : UInt8) : Prop :=
  r'.toNat / 128 = r.toNat / 128 ∧ r'.toNat % 128 = (r.toNat + n) % 128

/-- Refreshing counts as many cycles. -/
private theorem counted_refresh (n : Nat) (r : UInt8) :
    Counted n r (Registers.refresh r n) := by
  have hr := r.toNat_lt
  unfold Counted
  rw [toNat_refresh]
  omega

/-- Without LD R,A, a trail counts its M1 cycles. -/
theorem Trail.counted {r r' : UInt8} {passed : List (Boundary σ)}
    (h : Trail r passed r') (hloads : ∀ b ∈ passed, ¬b.LoadsR) :
    Counted (m1Cycles passed) r r' := by
  rw [h.refresh hloads, sum_cycles]
  exact counted_refresh _ r

/-- R counts M1 cycles and nothing else. Take any session that does not set R
from outside, and let no instruction in it be LD R,A. At its end, and at
every boundary on the way, R has counted the opcode fetches, the interrupts
and the refresh cycles of the halted core since the beginning, in its low
seven bits. No step is left out, since the steps account for all the
T-states that have passed. LD R,A itself, wherever it runs, gives R all
eight bits of A. -/
theorem refresh_counts_m1_cycles (s : Site σ) :
    (∀ events, (∀ event ∈ events, event.setsR = false) →
      (∀ b ∈ s.boundaries events, ¬b.LoadsR) →
      let passed := s.boundaries events
      Counted (m1Cycles passed) s.z.cpu.r (s.run events).z.cpu.r
      ∧ (∀ before b later, passed = before ++ b :: later →
          Counted (m1Cycles before) s.z.cpu.r b.cpu.r)
      ∧ (s.run events).z.clock.total
        = s.z.clock.total + (passed.map (·.step.1.1)).sum)
    ∧ ∀ b : Boundary σ, b.LoadsR → b.step.1.2.r = b.cpu.regs.a := by
  refine ⟨fun events hfree hloads => ?_, fun b hb => b.r_step_of_loadsR hb⟩
  obtain ⟨htrail, htotal⟩ := s.spans_run hfree
  refine ⟨htrail.counted hloads, fun before b later hpassed => ?_, htotal⟩
  rw [hpassed] at htrail hloads
  exact htrail.upTo.counted fun b' hb' => hloads b' (List.mem_append_left _ hb')

/-- RAM with a held prefix, INC IX and HALT, and an LD R,A behind them. -/
def refreshProgram : FlatMemory where
  bytes := #[0xDD, 0xDD, 0x23, 0x76, 0xED, 0x4F]

/-- The four steps of the program fetch one, two and one opcode and rest for
one cycle, and the handler that is entered from there is one more. -/
theorem refresh_counts_m1_cycles_held :
    let bus : Bus FlatMemory :=
      .ofParts (FlatMemory.bus id fun change ram => change ram) .unconnected
        .unconnected
    let cpu : Cpu := { Cpu.powerOn with
      regs := { Registers.powerOn with r := 0xFE, a := 0x5A } }
    let s : Site FlatMemory := ⟨bus, { cpu }, refreshProgram⟩
    let events := [.call .step, .call .step, .call .step, .call .step,
      .call (.core .requestNmi),
      .call .step]
    let b : Boundary FlatMemory :=
      ⟨bus, { cpu with regs := { cpu.regs with pc := 4 } }, refreshProgram⟩
    (∀ event ∈ events, event.setsR = false)
      ∧ (∀ b ∈ s.boundaries events, ¬b.LoadsR)
      ∧ (s.run events).z.cpu.r = 0x84
      ∧ b.LoadsR ∧ b.step.1.2.r = 0x5A := by
  intro bus cpu s events b
  have hfree : ∀ event ∈ events, event.setsR = false := by decide
  have hloads : ∀ b ∈ s.boundaries events, ¬b.LoadsR := by decide +kernel
  have hb : b.LoadsR := by decide +kernel
  obtain ⟨hcounts, hload⟩ := refresh_counts_m1_cycles s
  obtain ⟨⟨hhigh, hlow⟩, -⟩ := hcounts events hfree hloads
  have hsix : m1Cycles (s.boundaries events) = 6 := by decide +kernel
  rw [hsix] at hlow
  have hr : s.z.cpu.r = 0xFE := rfl
  rw [hr] at hhigh hlow
  refine ⟨hfree, hloads, UInt8.toNat_inj.1 ?_, hb, hload b hb⟩
  have hfe : (0xFE : UInt8).toNat = 254 := rfl
  have hgoal : (0x84 : UInt8).toNat = 132 := rfl
  omega

end ConsoleBoard.Z80
