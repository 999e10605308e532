/-
What one step charges, and what it leaves alone.

# The charge

A step is one of three things: an interrupt taken, a refresh cycle of a
halted core, or an instruction with the page bytes before it. The lower
bound of four T-states stands beside the definition of a step, because
the run loop needs it to end. The upper bound of 23 is here. It has one
idea: an instruction takes at most 19 T-states in all without its page
byte, whatever its branch does (`cost_add_mostExtra_le`), one page byte
adds four, and only the doubly prefixed page has two of them in front of
an instruction of at most 15.

# The frame

An instruction is ordinary, so the lines of the host are out of its reach;
an interrupt that is taken clears its own request and nothing else of
them. So a core never faults or recovers by running.
-/
import ConsoleBoard.Proofs.Z80.Ordinary
import ConsoleBoard.Z80.Cost

namespace ConsoleBoard.Z80

open Micro

variable {σ : Type}

-- ========================================================= the three kinds

/-- The core `n` refresh cycles later. -/
def Cpu.refreshed (cpu : Cpu) (n : Nat) : Cpu :=
  { cpu with regs := { cpu.regs with r := Registers.refresh cpu.regs.r n } }

/-- A step is the interrupt that can be taken, else a refresh cycle of a
halted core, else an instruction. -/
theorem step_eq (bus : Bus σ) (cpu : Cpu) (host : σ) :
    step bus cpu host =
      match cpu.acceptable with
      | some request => request.accept bus cpu host
      | none =>
          if cpu.halted then ((haltCost, cpu.refreshed 1), host)
          else instruction bus cpu host := by
  show (match cpu.acceptable with
    | some request => request.accept
    | none => if cpu.halted then do refresh 1; return haltCost
              else instruction : Micro σ Nat) bus cpu host = _
  cases cpu.acceptable with
  | some request => rfl
  | none =>
      cases cpu.halted with
      | true => rfl
      | false => rfl

-- ============================================================ upper bounds

/-- Whatever the bus, core and host, the number returned is at most `n`. -/
def Micro.AtMost (n : Nat) (m : Micro σ Nat) : Prop :=
  ∀ bus cpu host, (m bus cpu host).1.1 ≤ n

namespace Micro.AtMost

/-- Only the last action's cost counts. -/
theorem bind {α : Type} {n : Nat} {m : Micro σ α} {next : α → Micro σ Nat}
    (h : ∀ a, AtMost n (next a)) : AtMost n (m >>= next) := fun bus cpu host =>
  h (m bus cpu host).1.1 bus (m bus cpu host).1.2 (m bus cpu host).2

theorem pure {n k : Nat} (h : k ≤ n) : AtMost n (Pure.pure k : Micro σ Nat) :=
  fun _ _ _ => h

/-- A branch that costs `n` when it is taken, and nothing otherwise. -/
theorem branch {n : Nat} {c : Prop} [Decidable c] {m : Micro σ Unit} :
    AtMost n (if c then m >>= fun _ => Pure.pure n else Pure.pure 0) := by
  split
  · exact .bind fun _ => .pure (Nat.le_refl n)
  · exact .pure (Nat.zero_le n)

end Micro.AtMost

namespace Instruction

/-- The most that an instruction takes beyond its listed cost. -/
def mostExtra : Instruction → Nat
  | jumpRelativeIf _ | djnz => jumpTaken
  | callIf _ => callTaken
  | retIf _ => returnTaken
  | block _ _ _ => blockRepeat
  | _ => 0

/-- A branch that is taken, or a block instruction that repeats, takes its
extra and no more; everything else returns zero. -/
theorem execute_atMost (i : Instruction) :
    AtMost i.mostExtra (i.execute : Micro σ Nat) := by
  cases i
  case jumpIf cc =>
    refine .bind fun target => .bind fun _ => .bind fun now => ?_
    split
    · exact .bind fun _ => .pure (Nat.le_refl _)
    · exact .pure (Nat.le_refl _)
  case jumpRelativeIf cc => exact .bind fun d => .bind fun now => .branch
  case djnz => exact .bind fun d => .bind fun now => .bind fun _ => .branch
  case callIf cc =>
    exact .bind fun target => .bind fun _ => .bind fun now => .branch
  case retIf cc => exact .bind fun now => .branch
  case block action direction repeats => exact .bind fun more => .branch
  all_goals exact fun _ _ _ => Nat.le_refl 0

/-- An operand's cost is the largest of its three at most. -/
theorem operandCost_le {register plain indexed n : Nat} (hr : register ≤ n)
    (hp : plain ≤ n) (hi : indexed ≤ n) (o : Operand) :
    operandCost register plain indexed o ≤ n := by
  cases o with
  | reg r => exact hr
  | memory x =>
      cases x with
      | hl => exact hp
      | ix => exact hi
      | iy => exact hi

/-- The CB operations take at most 15 T-states behind their page bytes. -/
theorem cost_bits_le (op : BitOp) (o : Operand) : (bits op o).cost ≤ 15 := by
  cases op with
  | test n => exact operandCost_le (by decide) (by decide) (by decide) o
  | shift s => exact operandCost_le (by decide) (by decide) (by decide) o
  | reset n => exact operandCost_le (by decide) (by decide) (by decide) o
  | set n => exact operandCost_le (by decide) (by decide) (by decide) o

/-- No instruction takes more than 19 T-states behind its page byte, its
branch included: `EX (SP),HL` and the indexed INC and DEC reach it. -/
theorem cost_add_mostExtra_le (i : Instruction) :
    i.cost + i.mostExtra ≤ 19 := by
  cases i
  case load dst src =>
    cases dst with
    | reg r => exact operandCost_le (by decide) (by decide) (by decide) src
    | memory x =>
        exact operandCost_le (by decide) (by decide) (by decide) (.memory x)
  case loadImmediate o | alu _ o | increment o | decrement o =>
    exact operandCost_le (by decide) (by decide) (by decide) o
  case bits op o => exact Nat.le_trans (cost_bits_le op o) (by decide)
  -- what is left has a number for its cost
  all_goals exact Nat.le_of_ble_eq_true rfl

end Instruction

/-- An instruction takes at most 19 T-states behind its page bytes. -/
private theorem perform_atMost (lead : Nat) (i : Instruction) :
    AtMost (lead + 19) (perform lead i : Micro σ Nat) := by
  intro bus cpu host
  have hextra := i.execute_atMost bus cpu host
  have hcost := i.cost_add_mostExtra_le
  have hvalue : (perform lead i bus cpu host).1.1
      = lead + i.cost + (i.execute bus cpu host).1.1 := rfl
  omega

/-- The doubly prefixed page takes at most 23 T-states. -/
private theorem indexedBits_atMost (x : Index) :
    AtMost 23 (indexedBits x : Micro σ Nat) := by
  refine .bind fun address => .bind fun op => .bind fun _ => .pure ?_
  have hcost := Instruction.cost_bits_le (.ofOpcode op) (.memory x)
  unfold pageCost
  omega

private theorem heldPrefix_atMost : AtMost 23 (heldPrefix : Micro σ Nat) :=
  .bind fun _ => .pure (by decide)

/-- Behind DD and FD, an instruction takes at most 23 T-states. -/
private theorem indexed_atMost (x : Index) :
    AtMost 23 (indexed x : Micro σ Nat) := by
  refine .bind fun op => ?_
  split
  · exact heldPrefix_atMost
  · exact heldPrefix_atMost
  · exact heldPrefix_atMost
  · exact indexedBits_atMost x
  · exact perform_atMost pageCost _

/-- A dispatch takes at most 23 T-states. -/
private theorem dispatch_atMost (op : UInt8) :
    AtMost 23 (dispatch op : Micro σ Nat) := by
  unfold dispatch
  split
  · exact .bind fun _ => perform_atMost pageCost _
  · exact .bind fun _ => perform_atMost pageCost _
  · exact indexed_atMost .ix
  · exact indexed_atMost .iy
  · intro bus cpu host
    have hmost := perform_atMost 0 (Instruction.ofOpcode .hl op) bus cpu host
    omega

/-- Accepting an interrupt takes at most 23 T-states. -/
private theorem accept_atMost (request : Interrupt) :
    AtMost 23 (request.accept : Micro σ Nat) := by
  cases request with
  | nmi => exact .bind fun _ => .bind fun _ => .bind fun _ => .pure (by decide)
  | irq =>
      refine .bind fun _ => .bind fun _ => .bind fun _ => .bind fun _ =>
        .bind fun _ => .bind fun _ => .bind fun _ => .bind fun cpu => ?_
      cases cpu.im with
      | zero => exact .bind fun _ => .pure (by decide)
      | one => exact .bind fun _ => .pure (by decide)
      | two =>
          exact .bind fun _ => .bind fun _ => .bind fun _ => .pure (by decide)

-- ============================================================== the charge

/-- Whatever the bus, core and host, the T-states returned lie between
four and 23. -/
def Micro.Charges (m : Micro σ Nat) : Prop :=
  ∀ bus cpu host, 4 ≤ (m bus cpu host).1.1 ∧ (m bus cpu host).1.1 ≤ 23

/-- An instruction charges between 4 and 23 T-states. -/
theorem charges_instruction : Charges (instruction : Micro σ Nat) := by
  have hleast : AtLeast 4 (instruction : Micro σ Nat) :=
    .bind fun _ => .bind fun op => four_le_dispatch op
  have hmost : AtMost 23 (instruction : Micro σ Nat) :=
    .bind fun _ => .bind fun op => dispatch_atMost op
  exact fun bus cpu host => ⟨hleast bus cpu host, hmost bus cpu host⟩

/-- An accepted interrupt charges between 4 and 23 T-states. -/
theorem charges_accept (request : Interrupt) :
    Charges (request.accept : Micro σ Nat) := fun bus cpu host =>
  ⟨four_le_accept request bus cpu host, accept_atMost request bus cpu host⟩

/-- Every step charges between 4 and 23 T-states. -/
theorem charges_step : Charges (step : Micro σ Nat) := by
  intro bus cpu host
  rw [step_eq]
  cases cpu.acceptable with
  | some request => exact charges_accept request bus cpu host
  | none =>
      cases cpu.halted with
      | true => exact (by decide : 4 ≤ haltCost ∧ haltCost ≤ 23)
      | false => exact charges_instruction bus cpu host

-- =============================================================== the frame

/-- Whatever the bus and the host, the action leaves the view `f` of the
core as it was. -/
def Micro.Keeps {α γ : Type} (f : Cpu → γ) (m : Micro σ α) : Prop :=
  ∀ bus cpu host, f (m bus cpu host).1.2 = f cpu

namespace Micro.Keeps

variable {α β γ : Type} {f : Cpu → γ}

/-- What two actions keep, they keep one after the other. -/
theorem bind {m : Micro σ α} {next : α → Micro σ β} (hm : Keeps f m)
    (hnext : ∀ a, Keeps f (next a)) : Keeps f (m >>= next) :=
  fun bus cpu host => (hnext _ bus _ _).trans (hm bus cpu host)

theorem pure (a : α) : Keeps f (Pure.pure a : Micro σ α) := fun _ _ _ => rfl

/-- What both branches keep, a choice keeps. -/
theorem ite {c : Prop} [Decidable c] {m m' : Micro σ α} (hm : Keeps f m)
    (hm' : Keeps f m') : Keeps f (if c then m else m') := by
  split
  · exact hm
  · exact hm'

end Micro.Keeps

/-- Accepting an interrupt leaves the fault. -/
private theorem faulted_accept (request : Interrupt) :
    Keeps Cpu.faulted (request.accept : Micro σ Nat) := by
  cases request with
  | nmi => exact fun _ _ _ => rfl
  | irq =>
      -- the mode decides only where PC goes
      refine .bind (fun _ _ _ => rfl) fun _ => .bind (fun _ _ _ => rfl) fun _ =>
        .bind (fun _ _ _ => rfl) fun _ => .bind (fun _ _ _ => rfl) fun _ =>
        .bind (fun _ _ _ => rfl) fun _ => .bind (fun _ _ _ => rfl) fun _ =>
        .bind (fun _ _ _ => rfl) fun _ => .bind (fun _ _ _ => rfl) fun cpu => ?_
      cases cpu.im <;> exact fun _ _ _ => rfl

/-- No step faults a core or brings one back. -/
theorem faulted_step : Keeps Cpu.faulted (step : Micro σ Nat) := by
  intro bus cpu host
  rw [step_eq]
  cases cpu.acceptable with
  | some request => exact faulted_accept request bus cpu host
  | none =>
      cases cpu.halted with
      | true => rfl
      | false =>
          exact congrArg Lines.faulted (ordinary_instruction.lines bus cpu host)

end ConsoleBoard.Z80
