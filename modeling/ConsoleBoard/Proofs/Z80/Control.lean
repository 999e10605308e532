/-
What an instruction does to the core beside its registers.

Five kinds of instruction reach further than the registers: HALT, DI, EI,
IM and RETN. All others leave the rest of the core (`Cpu.control`) as it
was, which their frame shows, with one addition from the prefix bytes, of
which a held one sets the prefix shadow. An instruction starts by clearing both
shadows, and only EI and a held prefix set one; HALT is neither. So a core
never comes out of an instruction halted and in a shadow
(`wakeable_instruction`), and since interrupts are looked at in a halted
core like in any other, it can always be woken.

# The way through an instruction

`Micro.Wakes` says of an action that it leads from a core in no shadow to one
that can be woken. An action that leaves the control state alone can be put in
front of one that has the property (`Wakes.bind`), so the page bytes and the
operands are passed over and the five kinds decide.
-/
import ConsoleBoard.Proofs.Z80.Footprint
import ConsoleBoard.Proofs.Z80.Interrupt

namespace ConsoleBoard.Z80

open Micro

variable {σ : Type}

-- ========================================================= the other state

/-- The core but for its registers: flip-flops, mode, lines, the stopped
states and the shadows. -/
def Cpu.control (cpu : Cpu) : Cpu := { cpu with regs := .powerOn }

variable {α : Type}

/-- The frame of the registers leaves the control state. -/
theorem Micro.Keeps.control {written : Part → Bool} {m : Micro σ α}
    (h : Keeps (Cpu.frame written) m) : Keeps Cpu.control m :=
  h.of_frame fun _ => rfl

/-- An opcode fetch leaves the control state. -/
theorem control_fetchOpcode : Keeps Cpu.control (fetchOpcode : Micro σ UInt8) :=
  fun _ _ _ => rfl

theorem control_perform (lead : Nat) {i : Instruction} (h : i.RegistersOnly) :
    Keeps Cpu.control (perform lead i : Micro σ Nat) :=
  .bind (keeps_execute h).control fun _ => .pure _

theorem control_indexedBits (x : Index) :
    Keeps Cpu.control (indexedBits x : Micro σ Nat) :=
  (keeps_indexedBits x : Keeps (Cpu.frame fun _ => false) _).control

-- ================================================================ wakeable

namespace Cpu

/-- A halted core is in no shadow, so nothing but the lines and IFF1 decides
what it can take. -/
def Wakeable (cpu : Cpu) : Prop :=
  cpu.halted = true → cpu.eiShadow = false ∧ cpu.prefixShadow = false

/-- The core runs, and is in no shadow. -/
structure Clear (cpu : Cpu) : Prop where
  awake : cpu.halted = false
  noEi : cpu.eiShadow = false
  noPrefix : cpu.prefixShadow = false

/-- A core with the same control state is as clear. -/
theorem Clear.of_control {cpu cpu' : Cpu} (h : cpu.Clear)
    (hcontrol : cpu'.control = cpu.control) : cpu'.Clear where
  awake := (congrArg halted hcontrol).trans h.awake
  noEi := (congrArg eiShadow hcontrol).trans h.noEi
  noPrefix := (congrArg prefixShadow hcontrol).trans h.noPrefix

end Cpu

/-- From a running core in no shadow, the action leads to one that is not
halted in a shadow. -/
def Micro.Wakes (m : Micro σ Nat) : Prop :=
  ∀ bus cpu host, Cpu.Clear cpu → (m bus cpu host).1.2.Wakeable

namespace Micro.Wakes

/-- What comes before and leaves the control state changes nothing of it. -/
theorem bind {m : Micro σ α} {next : α → Micro σ Nat} (hm : Keeps Cpu.control m)
    (hnext : ∀ a, Wakes (next a)) : Wakes (m >>= next) :=
  fun bus cpu host h => hnext _ bus _ _ (h.of_control (hm bus cpu host))

/-- What keeps the control state keeps the core running. -/
theorem of_keeps {m : Micro σ Nat} (hm : Keeps Cpu.control m) : Wakes m :=
  fun bus cpu host h hhalted =>
    absurd ((h.of_control (hm bus cpu host)).awake.symm.trans hhalted) nofun

end Micro.Wakes

/-- From a clear core, an instruction leaves one that can wake. -/
private theorem wakes_perform (lead : Nat) (i : Instruction) :
    Wakes (perform lead i : Micro σ Nat) := by
  by_cases hi : i.RegistersOnly
  · exact .of_keeps (control_perform lead hi)
  · cases i
    case halt => exact fun _ _ _ h _ => ⟨h.noEi, h.noPrefix⟩
    case di | ei | im | retn =>
      exact fun _ _ _ h hhalted => absurd (h.awake.symm.trans hhalted) nofun
    all_goals exact absurd trivial hi

private theorem wakes_heldPrefix : Wakes (heldPrefix : Micro σ Nat) :=
  fun _ _ _ h hhalted => absurd (h.awake.symm.trans hhalted) nofun

private theorem wakes_indexed (x : Index) :
    Wakes (indexed x : Micro σ Nat) := by
  refine .bind control_fetchOpcode fun op => ?_
  split
  · exact wakes_heldPrefix
  · exact wakes_heldPrefix
  · exact wakes_heldPrefix
  · exact .of_keeps (control_indexedBits x)
  · exact wakes_perform _ _

/-- From a clear core, a dispatch leaves one that can wake. -/
private theorem wakes_dispatch (op : UInt8) :
    Wakes (dispatch op : Micro σ Nat) := by
  unfold dispatch
  split
  · exact .bind control_fetchOpcode fun _ => wakes_perform _ _
  · exact .bind control_fetchOpcode fun _ => wakes_perform _ _
  · exact wakes_indexed .ix
  · exact wakes_indexed .iy
  · exact wakes_perform _ _

/-- A running core comes out of an instruction running, or halted in no
shadow: the shadows are cleared before it. -/
theorem wakeable_instruction (bus : Bus σ) {cpu : Cpu} (h : cpu.halted = false)
    (host : σ) :
    (instruction bus cpu host).1.2.Wakeable := by
  have hdispatch : Wakes (do dispatch (← fetchOpcode) : Micro σ Nat) :=
    .bind control_fetchOpcode wakes_dispatch
  exact hdispatch bus { cpu with eiShadow := false, prefixShadow := false } host
    ⟨h, rfl, rfl⟩

end ConsoleBoard.Z80
