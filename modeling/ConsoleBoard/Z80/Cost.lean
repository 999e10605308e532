/-
Every step takes time. The lower bound is what makes a run of steps against
a budget end, so it stands beside the definition of a step and needs nothing
but its shape: each branch ends by returning a listed cost and something on
top of it.
-/
import ConsoleBoard.Z80.Step

namespace ConsoleBoard.Z80

variable {σ : Type}

/-- Whatever the bus, core and host, the number returned is at least `n`. -/
def Micro.AtLeast (n : Nat) (m : Micro σ Nat) : Prop :=
  ∀ bus cpu host, n ≤ (m bus cpu host).1.1

namespace Micro.AtLeast

theorem bind {α : Type} {n : Nat} {m : Micro σ α} {next : α → Micro σ Nat}
    (h : ∀ a, AtLeast n (next a)) : AtLeast n (m >>= next) :=
  fun bus cpu host =>
  h (m bus cpu host).1.1 bus (m bus cpu host).1.2 (m bus cpu host).2

theorem pure {n k : Nat} (h : n ≤ k) : AtLeast n (Pure.pure k : Micro σ Nat) :=
  fun _ _ _ => h

end Micro.AtLeast

open Micro

theorem Instruction.four_le_cost (i : Instruction) : 4 ≤ i.cost := by
  unfold Instruction.cost
  split <;> (try unfold Instruction.operandCost; split) <;> decide

theorem four_le_perform (lead : Nat) (i : Instruction) :
    AtLeast 4 (perform lead i : Micro σ Nat) := by
  refine .bind fun extra => .pure ?_
  have := i.four_le_cost
  omega

theorem four_le_indexedBits (x : Index) :
    AtLeast 4 (indexedBits x : Micro σ Nat) := by
  refine .bind fun _ => .bind fun op => .bind fun _ => .pure ?_
  have := (Instruction.bits (BitOp.ofOpcode op) (.memory x)).four_le_cost
  omega

theorem four_le_heldPrefix : AtLeast 4 (heldPrefix : Micro σ Nat) :=
  .bind fun _ => .pure (Nat.le_refl _)

theorem four_le_indexed (x : Index) : AtLeast 4 (indexed x : Micro σ Nat) := by
  refine .bind fun op => ?_
  split
  · exact four_le_heldPrefix
  · exact four_le_heldPrefix
  · exact four_le_heldPrefix
  · exact four_le_indexedBits x
  · exact four_le_perform _ _

theorem four_le_dispatch (op : UInt8) :
    AtLeast 4 (dispatch op : Micro σ Nat) := by
  unfold dispatch
  split
  · exact .bind fun _ => four_le_perform _ _
  · exact .bind fun _ => four_le_perform _ _
  · exact four_le_indexed _
  · exact four_le_indexed _
  · exact four_le_perform _ _

theorem four_le_accept (request : Interrupt) :
    AtLeast 4 (request.accept : Micro σ Nat) := by
  cases request with
  | nmi => exact .bind fun _ => .bind fun _ => .bind fun _ => .pure (by decide)
  | irq =>
    refine .bind fun _ => .bind fun _ => .bind fun _ => .bind fun _ =>
      .bind fun _ =>
      .bind fun _ => .bind fun _ => .bind fun cpu => ?_
    cases cpu.im with
    | zero => exact .bind fun _ => .pure (by decide)
    | one => exact .bind fun _ => .pure (by decide)
    | two =>
        exact .bind fun _ => .bind fun _ => .bind fun _ => .pure (by decide)

/-- A step takes at least four T-states. -/
theorem four_le_step (bus : Bus σ) (cpu : Cpu) (host : σ) :
    4 ≤ (step bus cpu host).1.1 := by
  have h : AtLeast 4 (step : Micro σ Nat) := by
    refine .bind fun cpu => ?_
    split
    · exact four_le_accept _
    · split
      · exact .bind fun _ => .pure (by decide)
      · exact .bind fun _ => .bind fun _ => four_le_dispatch _
  exact h bus cpu host

end ConsoleBoard.Z80
