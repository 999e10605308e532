/-
Block instructions that repeat.

A step runs one pass of a repeating block instruction (`step_repeating`).
While the pass leaves work, PC goes back onto the instruction and the pass
takes 21 T-states, else PC stays behind it and the pass takes 16. So the
instruction is over after as many steps as there are passes, and this is
counted once, for whatever the passes do (`Loop.run`): an instance says what
holds after `j` passes, that a pass leads from `j` to `j + 1`, and which one
is the last.

What is left of a 16-bit counter is read off the number of passes made
(`toNat_sub_ofNat`), also where the counter begins at zero.
-/
import ConsoleBoard.Proofs.Z80.Prefixed

namespace ConsoleBoard.Z80

open Micro

variable {σ : Type}

-- ==================================================== addresses and counts

theorem sub_ofNat_succ (w : UInt16) (n : Nat) :
    w - UInt16.ofNat n - 1 = w - UInt16.ofNat (n + 1) := by
  rw [show UInt16.ofNat (n + 1) = UInt16.ofNat n + 1 from UInt16.ofNat_add n 1]
  grind

namespace Direction

/-- The address `n` places on, wrapping. -/
def ahead (direction : Direction) (w : UInt16) (n : Nat) : UInt16 :=
  match direction with
  | up => w + UInt16.ofNat n
  | down => w - UInt16.ofNat n

theorem ahead_zero (direction : Direction) (w : UInt16) :
    direction.ahead w 0 = w := by
  cases direction with
  | up => exact UInt16.add_zero w
  | down => exact UInt16.sub_zero w

theorem step_ahead (direction : Direction) (w : UInt16) (n : Nat) :
    direction.step (direction.ahead w n) = direction.ahead w (n + 1) := by
  cases direction with
  | up =>
      show w + UInt16.ofNat n + 1 = w + UInt16.ofNat (n + 1)
      rw [UInt16.ofNat_add, ← UInt16.add_assoc]
      rfl
  | down => exact sub_ofNat_succ w n

theorem ahead_step (direction : Direction) (w : UInt16) (n : Nat) :
    direction.ahead (direction.step w) n = direction.ahead w (n + 1) := by
  induction n with
  | zero => rw [← step_ahead, ahead_zero, ahead_zero]
  | succ n ih => rw [← step_ahead, ih, step_ahead]

/-- No place comes twice before all of them have been passed. -/
theorem ahead_inj {direction : Direction} {w : UInt16} {i j : Nat}
    (hi : i < 65536) (hj : j < 65536) :
    direction.ahead w i = direction.ahead w j ↔ i = j := by
  have hw := w.toNat_lt
  rw [← UInt16.toNat_inj]
  cases direction with
  | up =>
      unfold ahead
      rw [UInt16.toNat_add, UInt16.toNat_add, UInt16.toNat_ofNat',
        UInt16.toNat_ofNat']
      omega
  | down =>
      unfold ahead
      rw [UInt16.toNat_sub, UInt16.toNat_sub, UInt16.toNat_ofNat',
        UInt16.toNat_ofNat']
      omega

end Direction

/-- The number of passes that a 16-bit counter gives. It counts down before it
is looked at, so zero gives all 65536. -/
def passesOf (counter : UInt16) : Nat :=
  if counter = 0 then 65536 else counter.toNat

/-- A counter stands for one pass at least. -/
theorem passesOf_pos (counter : UInt16) : 0 < passesOf counter := by
  unfold passesOf
  split
  · decide
  next h =>
    have hne : counter.toNat ≠ 0 := fun hzero => h (UInt16.toNat_inj.1 hzero)
    omega

/-- Behind the first pass the counter shows how many are left. -/
theorem toNat_sub_ofNat {counter : UInt16} {j : Nat} (hpos : 0 < j)
    (hj : j ≤ passesOf counter) :
    (counter - UInt16.ofNat j).toNat = passesOf counter - j := by
  have hlt := counter.toNat_lt
  unfold passesOf at hj ⊢
  rw [UInt16.toNat_sub, UInt16.toNat_ofNat']
  split at hj
  next hzero =>
    rw [if_pos hzero, hzero, UInt16.toNat_zero]
    omega
  next hne =>
    rw [if_neg hne]
    omega

/-- The counter runs out in the last pass and not before. -/
theorem sub_ofNat_eq_zero_iff {counter : UInt16} {j : Nat} (hpos : 0 < j)
    (hj : j ≤ passesOf counter) :
    counter - UInt16.ofNat j = 0 ↔ j = passesOf counter := by
  rw [← UInt16.toNat_inj, toNat_sub_ofNat hpos hj, UInt16.toNat_zero]
  omega

/-- A pass leaves work exactly if it is not the last one. -/
theorem bne_sub_ofNat {counter : UInt16} {j : Nat} (hj : j < passesOf counter) :
    (counter - UInt16.ofNat (j + 1) != 0)
      = decide (j + 1 < passesOf counter) := by
  have hdone := sub_ofNat_eq_zero_iff (Nat.succ_pos j) hj
  rw [Bool.eq_iff_iff, bne_iff_ne, ne_eq, hdone, decide_eq_true_eq]
  omega

/-- The registers `j` passes behind `start`, for a block instruction that counts
bytes in BC and addresses in HL. -/
structure Registers.Counted (start : Registers)
    (direction : Direction) (j : Nat) (now : Registers) : Prop where
  hl : now.hl.toWord = direction.ahead start.hl.toWord j
  bc : now.bc.toWord = start.bc.toWord - UInt16.ofNat j
  a : now.a = start.a
  c : now.f.c = start.f.c
  r : now.r = Registers.refresh start.r (2 * j)

namespace Registers.Counted

variable {start now next : Registers} {direction : Direction} {j : Nat}

theorem first (start : Registers) (direction : Direction) :
    start.Counted direction 0 start where
  hl := (direction.ahead_zero _).symm
  bc := (UInt16.sub_zero _).symm
  a := rfl
  c := rfl
  r := (refresh_zero _).symm

/-- A pass takes one byte, and its two opcode bytes are refresh cycles. -/
theorem pass (h : start.Counted direction j now)
    (hhl : next.hl = .ofWord (direction.step now.hl.toWord))
    (hbc : next.bc = .ofWord (now.bc.toWord - 1)) (ha : next.a = now.a)
    (hc : next.f.c = now.f.c) (hr : next.r = Registers.refresh now.r 2) :
    start.Counted direction (j + 1) next where
  hl := by rw [hhl, Pair.toWord_ofWord, h.hl, Direction.step_ahead]
  bc := by rw [hbc, Pair.toWord_ofWord, h.bc, sub_ofNat_succ]
  a := ha.trans h.a
  c := hc.trans h.c
  r := by rw [hr, h.r, refresh_refresh, Nat.mul_succ]

end Registers.Counted

-- ================================================================ one pass

/-- The core is awake and nothing is asked of it. -/
structure Cpu.Quiet (cpu : Cpu) : Prop where
  awake : cpu.halted = false
  irq : cpu.irqPending = false
  nmi : cpu.nmiPending = false

/-- On a quiet core a step is an instruction. -/
theorem Cpu.Quiet.step_eq {cpu : Cpu} (h : cpu.Quiet) (bus : Bus σ) (host : σ) :
    step bus cpu host = instruction bus cpu host := by
  have hnone : cpu.acceptable = none := by
    unfold acceptable
    rw [h.nmi, h.irq]
    cases cpu.prefixShadow <;> rfl
  rw [ConsoleBoard.Z80.step_eq, hnone, h.awake]
  rfl

/-- The two opcode bytes of an instruction of the extended page. -/
structure Bus.Extended (bus : Bus σ) (pc : UInt16) (op : UInt8)
    (host : σ) : Prop where
  first : bus.fetch pc host = (0xED, host)
  second : bus.fetch (pc + 1) host = (op, host)

namespace Cpu

/-- The core behind the two opcode bytes of an extended instruction. -/
def pastOpcode (cpu : Cpu) : Cpu := cpu.unshadowed.skipped 2

/-- The core with PC back on the extended instruction that it has just run. -/
def rewound (cpu : Cpu) : Cpu :=
  { cpu with regs := { cpu.regs with
      pc := cpu.regs.pc - 2, wz := cpu.regs.pc - 1 } }

/-- The core after one pass: back on the instruction while there is work
left. -/
def afterPass (cpu : Cpu) (more : Bool) : Cpu :=
  if more then cpu.rewound else cpu

end Cpu

/-- The opcode bytes leave a core quiet. -/
theorem Cpu.Quiet.pastOpcode {cpu : Cpu} (h : cpu.Quiet) :
    cpu.pastOpcode.Quiet :=
  ⟨h.awake, h.irq, h.nmi⟩

theorem Cpu.Quiet.rewound {cpu : Cpu} (h : cpu.Quiet) : cpu.rewound.Quiet :=
  ⟨h.awake, h.irq, h.nmi⟩

/-- T-states of one pass, with the page byte. -/
def passCost (more : Bool) : Nat := if more then 21 else 16

/-- A pass moves no PC and asks for nothing. -/
theorem pc_blockStep (direction : Direction) (action : BlockAction) :
    Keeps (·.regs.pc) (Block.step direction action : Micro σ Bool) := by
  cases action <;> exact fun _ _ _ => rfl

/-- The body of a block instruction leaves a core quiet. -/
private theorem quiet_blockStep (direction : Direction) (action : BlockAction)
    (bus : Bus σ) {cpu : Cpu} (h : cpu.Quiet) (host : σ) :
    (Block.step direction action bus cpu host).1.2.Quiet := by
  cases action <;> exact ⟨h.awake, h.irq, h.nmi⟩

section

variable {bus : Bus σ} {op : UInt8} {action : BlockAction}
  {direction : Direction}

/-- A step at a repeating instruction is one pass. -/
theorem step_repeating {cpu : Cpu} {host : σ} (hquiet : cpu.Quiet)
    (hop : Instruction.ofExtendedOpcode op = .block action direction true)
    (hcode : bus.Extended cpu.regs.pc op host) :
    let pass := Block.step direction action bus cpu.pastOpcode host
    step bus cpu host
      = ((passCost pass.1.1, pass.1.2.afterPass pass.1.1), pass.2) := by
  intro pass
  have hpaged : instruction bus cpu host
      = perform pageCost (Instruction.ofExtendedOpcode op) bus
        cpu.pastOpcode host :=
    instruction_paged rfl hcode.first hcode.second
  have hrun : Block.run action direction true bus cpu.pastOpcode host
      = ((if pass.1.1 then Instruction.blockRepeat else 0,
          pass.1.2.afterPass pass.1.1),
          pass.2) := by
    show (if pass.1.1 then _ else _ : Micro σ Nat) bus pass.1.2 pass.2 = _
    cases pass.1.1 <;> rfl
  rw [hquiet.step_eq, hpaged, perform_eq, hop, Instruction.execute, hrun]
  cases pass.1.1 <;> rfl

-- ================================================================ the loop

/-- A repeating instruction at `start` that makes `n` passes, and what holds
after each number of them, wherever PC and WZ are. -/
structure Loop (bus : Bus σ) (start : UInt16) (op : UInt8)
    (action : BlockAction) (direction : Direction) (n : Nat)
    (after : Nat → Cpu → σ → Prop) : Prop where
  opcode : Instruction.ofExtendedOpcode op = .block action direction true
  code : ∀ {j cpu host}, j < n → after j cpu host → bus.Extended start op host
  pass : ∀ {j cpu host}, j < n → after j cpu host →
    let pass := Block.step direction action bus cpu.pastOpcode host
    pass.1.1 = decide (j + 1 < n) ∧ after (j + 1) pass.1.2 pass.2
  rewound : ∀ {j cpu host}, after j cpu host → after j cpu.rewound host

namespace Loop

variable {start : UInt16} {n : Nat} {after : Nat → Cpu → σ → Prop}

/-- A step from one boundary leads to the next one. -/
theorem step (h : Loop bus start op action direction n after) {j : Nat}
    (hj : j < n) {cpu : Cpu} {host : σ} (hquiet : cpu.Quiet)
    (hpc : cpu.regs.pc = start) (hafter : after j cpu host) :
    let one := Z80.step bus cpu host
    one.1.1 = passCost (decide (j + 1 < n))
      ∧ one.1.2.Quiet
      ∧ one.1.2.regs.pc = (if j + 1 < n then start else start + 2)
      ∧ after (j + 1) one.1.2 one.2 := by
  intro one
  obtain ⟨hmore, hnext⟩ := h.pass hj hafter
  have hcode : bus.Extended cpu.regs.pc op host := hpc ▸ h.code hj hafter
  have hone : one = _ := step_repeating hquiet h.opcode hcode
  have hbehind : cpu.pastOpcode.regs.pc = start + 2 := by
    rw [← hpc]
    rfl
  have hpast : (Block.step direction action bus cpu.pastOpcode host).1.2.regs.pc
      = start + 2 :=
    (pc_blockStep direction action bus _ host).trans hbehind
  have hstill := quiet_blockStep direction action bus hquiet.pastOpcode host
  rw [hone, hmore]
  -- with more to do, PC is back on the first byte
  by_cases hlast : j + 1 < n
  · rw [decide_eq_true hlast, if_pos hlast]
    refine ⟨rfl, hstill.rewound, ?_, h.rewound hnext⟩
    show (Block.step direction action bus cpu.pastOpcode host).1.2.regs.pc
      - 2 = start
    rw [hpast, UInt16.add_sub_cancel]
  · rw [decide_eq_false hlast, if_neg hlast]
    exact ⟨rfl, hstill, hpast, hnext⟩

/-- From the first boundary on, `n` steps run the instruction to its end: PC is
on it at every boundary before that, and behind it then. -/
theorem run (h : Loop bus start op action direction n after) {z : Z80}
    {host : σ} (hquiet : z.cpu.Quiet) (hpc : z.cpu.regs.pc = start)
    (hstart : after 0 z.cpu host) (hn : 0 < n) {j : Nat} (hj : j ≤ n) :
    let reached := steps bus j z host
    reached.1.1 = (if j < n then 21 * j else 21 * (n - 1) + 16)
      ∧ reached.1.2.cpu.Quiet
      ∧ reached.1.2.cpu.regs.pc = (if j < n then start else start + 2)
      ∧ after j reached.1.2.cpu reached.2 := by
  intro reached
  induction j with
  | zero =>
      rw [if_pos hn, if_pos hn]
      exact ⟨rfl, hquiet, hpc, hstart⟩
  | succ j ih =>
      obtain ⟨hused, hquiet', hpc', hafter⟩ := ih (by omega)
      -- a pass is left, so this boundary is on the instruction
      rw [if_pos (by omega)] at hused hpc'
      obtain ⟨hcost, hnext⟩ := h.step hj hquiet' hpc' hafter
      have hreached : reached = _ := steps_snoc bus j z host
      rw [hreached]
      refine ⟨?_, hnext⟩
      show (steps bus j z host).1.1 + (Z80.step bus _ _).1.1 = _
      rw [hused, hcost]
      unfold passCost
      by_cases hlast : j + 1 < n
      · rw [if_pos hlast, decide_eq_true hlast, if_pos rfl]
        omega
      · rw [if_neg hlast, decide_eq_false hlast, if_neg Bool.false_ne_true]
        have hsame : j = n - 1 := by omega
        rw [hsame]

end Loop

end

end ConsoleBoard.Z80
