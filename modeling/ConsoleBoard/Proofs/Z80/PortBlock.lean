/-
INIR and OTIR move B bytes through a port.

A pass is one call of the device behind the ports, which may answer by any
state of its own. So what a run does to it is what the same calls do one
after another (`PortBus.inputs`, `PortBus.outputs`), and a pass appends one
call to them. The two directions of transfer count alike
(`Registers.PortCounted`): B goes down, HL moves on and C and DE stay. They
differ in when the port is addressed, which is with B as it was for a read
and with B already counted down for a write.

A recorder in front of the device shows the calls themselves: it writes down
just the ones of the list, in its order (`inputs_recorded`,
`outputs_recorded`).
-/
import Mathlib.Data.List.Induction
import ConsoleBoard.Proofs.Z80.Record
import ConsoleBoard.Proofs.Z80.Transfer

namespace ConsoleBoard.Z80

open Bench (Access)
open FlatMemory (size_writeByte hold_writeByte)

variable {π : Type}

-- ============================================================= the counter

/-- The number of passes that a byte counter gives; zero gives all 256. -/
def passesOfByte (counter : UInt8) : Nat :=
  if counter = 0 then 256 else counter.toNat

/-- A byte counts between 1 and 256 passes. -/
private theorem passesOfByte_bounds (counter : UInt8) :
    0 < passesOfByte counter ∧ passesOfByte counter ≤ 256 := by
  have hlt := counter.toNat_lt
  unfold passesOfByte
  split
  · decide
  next h =>
    have hne : counter.toNat ≠ 0 := fun hzero => h (UInt8.toNat_inj.1 hzero)
    omega

private theorem sub_byte_succ (b : UInt8) (n : Nat) :
    b - UInt8.ofNat n - 1 = b - UInt8.ofNat (n + 1) := by
  rw [show UInt8.ofNat (n + 1) = UInt8.ofNat n + 1 from UInt8.ofNat_add n 1]
  grind

/-- Behind the first pass the counter is zero exactly after the last one. -/
theorem sub_byte_eq_zero_iff {counter : UInt8} {j : Nat} (hpos : 0 < j)
    (hj : j ≤ passesOfByte counter) :
    counter - UInt8.ofNat j = 0 ↔ j = passesOfByte counter := by
  have hlt := counter.toNat_lt
  unfold passesOfByte at hj ⊢
  rw [← UInt8.toNat_inj, UInt8.toNat_sub, UInt8.toNat_ofNat', UInt8.toNat_zero]
  split at hj
  next hzero =>
    rw [if_pos hzero, hzero, UInt8.toNat_zero]
    omega
  next hne =>
    rw [if_neg hne]
    omega

/-- A pass leaves work exactly if it is not the last one. -/
theorem bne_sub_byte {counter : UInt8} {j : Nat}
    (hj : j < passesOfByte counter) :
    (counter - UInt8.ofNat (j + 1) != 0)
      = decide (j + 1 < passesOfByte counter) := by
  have hdone := sub_byte_eq_zero_iff (Nat.succ_pos j) hj
  rw [Bool.eq_iff_iff, bne_iff_ne, ne_eq, hdone, decide_eq_true_eq]
  omega

-- =============================================== a device behind the ports

namespace PortBus

/-- Read one port after another: the answers, and what the device is then. -/
def inputs (device : PortBus π) (ports : List UInt16) : StateM π (List UInt8) :=
  ports.mapM device.input

/-- Write one byte after another, each to its port. -/
def outputs (device : PortBus π) (writes : List (UInt16 × UInt8)) :
    StateM π Unit :=
  forM writes fun (port, v) => device.output port v

variable (device : PortBus π)

private theorem inputs_snoc (ports : List UInt16) (port : UInt16) (state : π) :
    device.inputs (ports ++ [port]) state =
      let before := device.inputs ports state
      let last := device.input port before.2
      (before.1 ++ [last.1], last.2) := by
  unfold inputs
  rw [List.mapM_append]
  rfl

private theorem outputs_snoc (writes : List (UInt16 × UInt8)) (port : UInt16)
    (v : UInt8) (state : π) :
    device.outputs (writes ++ [(port, v)]) state
      = device.output port v (device.outputs writes state).2 := by
  unfold outputs
  rw [List.forM_append]
  rfl

/-- Each port gives one byte. -/
private theorem length_inputs (ports : List UInt16) (state : π) :
    (device.inputs ports state).1.length = ports.length := by
  induction ports using List.reverseRecOn with
  | nil => rfl
  | append_singleton ports port ih =>
      rw [inputs_snoc]
      dsimp only
      rw [List.length_append, List.length_append, ih]
      rfl

/-- A recorder writes the reads down with their answers. -/
theorem inputs_recorded (ports : List UInt16) (state : π) (log : List Access) :
    device.recorded.inputs ports (state, log) =
      let plain := device.inputs ports state
      (plain.1, plain.2, log ++ List.zipWith .input ports plain.1) := by
  induction ports using List.reverseRecOn with
  | nil => exact congrArg (([], state, ·)) (List.append_nil log).symm
  | append_singleton ports port ih =>
      rw [inputs_snoc, inputs_snoc, ih]
      dsimp only
      rw [List.zipWith_append (device.length_inputs ports state).symm,
        ← List.append_assoc]
      rfl

/-- And the writes. -/
theorem outputs_recorded (writes : List (UInt16 × UInt8)) (state : π)
    (log : List Access) :
    device.recorded.outputs writes (state, log) =
      let plain := device.outputs writes state
      ((), plain.2, log ++ writes.map fun (port, v) => .output port v) := by
  induction writes using List.reverseRecOn with
  | nil => exact congrArg (((), state, ·)) (List.append_nil log).symm
  | append_singleton writes last ih =>
      rw [outputs_snoc, outputs_snoc, ih, List.map_append, ← List.append_assoc]
      rfl

end PortBus

/-- Flat RAM and a device behind the ports, neither of which reaches the
other. -/
def FlatRig.beside (device : PortBus π)
    (interrupts : InterruptBus (FlatMemory × π)) :
    FlatRig (FlatMemory × π) where
  view := Prod.fst
  update change host := (change host.1, host.2)
  ports :=
    { input := fun port host =>
        ((device.input port host.2).1, host.1, (device.input port host.2).2)
      output := fun port v host =>
        ((), host.1, (device.output port v host.2).2) }
  interrupts := interrupts

-- ========================================================= the assignments

namespace Direction

/-- The second opcode byte of INIR, or of INDR. -/
def inputCode : Direction → UInt8
  | up => 0xB2
  | down => 0xBA

/-- The second opcode byte of OTIR, or of OTDR. -/
def outputCode : Direction → UInt8
  | up => 0xB3
  | down => 0xBB

private theorem ofExtendedOpcode_inputCode (direction : Direction) :
    Instruction.ofExtendedOpcode direction.inputCode
      = .block .input direction true := by
  cases direction <;> rfl

private theorem ofExtendedOpcode_outputCode (direction : Direction) :
    Instruction.ofExtendedOpcode direction.outputCode
      = .block .output direction true := by
  cases direction <;> rfl

/-- RAM with bytes stored one after the other from `target` on. -/
def stored (direction : Direction) (target : UInt16) (values : List UInt8)
    (ram : UInt16 → UInt8) : UInt16 → UInt8 :=
  values.zipIdx.foldl
    (fun now (v, i) => Function.update now (direction.ahead target i) v) ram

variable {direction : Direction} {target : UInt16} {values : List UInt8}
  {ram : UInt16 → UInt8}

/-- One more value is stored ahead of the others. -/
theorem stored_snoc (v : UInt8) :
    direction.stored target (values ++ [v]) ram
      = Function.update (direction.stored target values ram)
          (direction.ahead target values.length) v := by
  unfold stored
  rw [List.zipIdx_append, List.foldl_append, Nat.zero_add]
  rfl

/-- What is no target keeps its byte. -/
theorem stored_of_ne {a : UInt16}
    (h : ∀ i < values.length, direction.ahead target i ≠ a) :
    direction.stored target values ram a = ram a := by
  induction values using List.reverseRecOn with
  | nil => rfl
  | append_singleton values v ih =>
      rw [List.length_append] at h
      rw [stored_snoc, Function.update_of_ne (h _ (Nat.lt_succ_self _)).symm]
      exact ih fun i hi => h i (Nat.lt_succ_of_lt hi)

/-- Up to a full round the targets are apart, so each keeps its own byte. -/
theorem stored_ahead (hlen : values.length ≤ 65536) {i : Nat}
    (hi : i < values.length) :
    direction.stored target values ram (direction.ahead target i)
      = values[i] := by
  induction values using List.reverseRecOn with
  | nil => cases hi
  | append_singleton values v ih =>
      rw [List.length_append, List.length_singleton] at hlen hi
      rw [stored_snoc, Function.update_apply]
      by_cases hlast : i = values.length
      · rw [if_pos (congrArg _ hlast), List.getElem_concat_length hlast]
      · have hbefore : i < values.length := by omega
        have hapart : direction.ahead target i
            ≠ direction.ahead target values.length :=
          mt (ahead_inj (by omega) (by omega)).1 hlast
        rw [if_neg hapart, List.getElem_append_left hbefore]
        exact ih (by omega) hbefore

end Direction

-- ========================================================== the boundaries

/-- The port that BC addresses after B has been counted down `i` times. -/
def Registers.portAfter (start : Registers) (i : Nat) : UInt16 :=
  (Pair.mk (start.bc.high - UInt8.ofNat i) start.bc.low).toWord

/-- The registers `j` passes behind `start`, for a block instruction that counts
bytes in B. -/
structure Registers.PortCounted (start : Registers)
    (direction : Direction) (j : Nat) (now : Registers) : Prop where
  hl : now.hl.toWord = direction.ahead start.hl.toWord j
  bc : now.bc = ⟨start.bc.high - UInt8.ofNat j, start.bc.low⟩
  de : now.de = start.de
  zero : 0 < j → now.f.z = (now.bc.high == 0)

namespace Registers.PortCounted

variable {start now next : Registers} {direction : Direction} {j : Nat}

theorem first (start : Registers) (direction : Direction) :
    start.PortCounted direction 0 start where
  hl := (direction.ahead_zero _).symm
  bc := by rw [show UInt8.ofNat 0 = 0 from rfl, UInt8.sub_zero]
  de := rfl
  zero := nofun

/-- One pass moves HL by one step and counts B down by one. -/
theorem pass (h : start.PortCounted direction j now)
    (hhl : next.hl = .ofWord (direction.step now.hl.toWord))
    (hbc : next.bc = { now.bc with high := now.bc.high - 1 })
    (hde : next.de = now.de) (hz : next.f.z = (next.bc.high == 0)) :
    start.PortCounted direction (j + 1) next where
  hl := by rw [hhl, Pair.toWord_ofWord, h.hl, Direction.step_ahead]
  bc := by rw [hbc, h.bc, sub_byte_succ]
  de := hde.trans h.de
  zero _ := hz

/-- The port of a read. -/
theorem port (h : start.PortCounted direction j now) :
    now.bc.toWord = start.portAfter j := by
  rw [h.bc]
  rfl

end Registers.PortCounted

section

variable {device : PortBus π} {direction : Direction} {start : Registers}
  {ram : FlatMemory} {state : π} {j : Nat} {cpu : Cpu} {host : FlatMemory × π}

/-- The ports of `n` reads. -/
def Registers.inputPorts (start : Registers) (n : Nat) : List UInt16 :=
  (List.range n).map start.portAfter

/-- The ports and the bytes of `n` writes: B is counted down first. -/
def Registers.outputWrites (start : Registers) (direction : Direction)
    (ram : UInt16 → UInt8) (n : Nat) : List (UInt16 × UInt8) :=
  (List.range n).map fun i =>
    (start.portAfter (i + 1), ram (direction.ahead start.hl.toWord i))

/-- One more port is read, from the B that is left. -/
private theorem inputPorts_succ (n : Nat) :
    start.inputPorts (n + 1) = start.inputPorts n ++ [start.portAfter n] := by
  unfold Registers.inputPorts
  rw [List.range_succ, List.map_append]
  rfl

/-- Each read has its answer. -/
theorem length_answers (device : PortBus π) (start : Registers) (n : Nat)
    (state : π) :
    (device.inputs (start.inputPorts n) state).1.length = n := by
  rw [device.length_inputs, Registers.inputPorts, List.length_map,
    List.length_range]

/-- One more byte is written, to the B that is left behind it. -/
private theorem outputWrites_succ (peek : UInt16 → UInt8) (n : Nat) :
    start.outputWrites direction peek (n + 1)
      = start.outputWrites direction peek n
        ++ [(start.portAfter (n + 1),
            peek (direction.ahead start.hl.toWord n))] := by
  unfold Registers.outputWrites
  rw [List.range_succ, List.map_append]
  rfl

/-- The core, RAM and device `j` reads behind the first boundary. -/
structure Intake (device : PortBus π) (direction : Direction)
    (start : Registers) (ram : UInt16 → UInt8) (state : π) (j : Nat) (cpu : Cpu)
    (host : FlatMemory × π) : Prop where
  counted : start.PortCounted direction j cpu.regs
  full : host.1.hold = .free ∧ host.1.bytes.size = FlatMemory.addressSpace
  ram : host.1.readByte
    = direction.stored start.hl.toWord
      (device.inputs (start.inputPorts j) state).1 ram
  device : host.2 = (device.inputs (start.inputPorts j) state).2

/-- The core, RAM and device `j` writes behind the first boundary. -/
structure Outlet (device : PortBus π) (direction : Direction)
    (start : Registers) (ram : FlatMemory) (state : π) (j : Nat) (cpu : Cpu)
    (host : FlatMemory × π) : Prop where
  counted : start.PortCounted direction j cpu.regs
  still : host.1 = ram
  device : host.2
    = (device.outputs (start.outputWrites direction ram.readByte j) state).2

/-- One pass takes in one byte more. -/
theorem Intake.pass {peek : UInt16 → UInt8}
    (h : Intake device direction start peek state j cpu host)
    (interrupts : InterruptBus (FlatMemory × π)) :
    let rig := FlatRig.beside device interrupts
    let bus := Bus.ofParts (FlatMemory.bus rig.view rig.update) rig.ports
      rig.interrupts
    let pass := Block.input direction bus cpu.pastOpcode host
    pass.1.1 = (start.bc.high - UInt8.ofNat (j + 1) != 0)
      ∧ Intake device direction start peek state (j + 1) pass.1.2 pass.2 := by
  intro rig bus pass
  let v := (device.input cpu.regs.bc.toWord host.2).1
  have hcounted : start.PortCounted direction (j + 1) pass.1.2.regs :=
    h.counted.pass rfl rfl rfl rfl
  have hleft : pass.1.1 = (pass.1.2.regs.bc.high != 0) := rfl
  -- the answer of this pass joins those that were stored
  have hanswers :=
    device.inputs_snoc (start.inputPorts j) (start.portAfter j) state
  dsimp only at hanswers
  rw [← inputPorts_succ, ← h.device, ← h.counted.port] at hanswers
  have hlength := length_answers device start j state
  refine ⟨by rw [hleft, hcounted.bc], ?_⟩
  exact {
    counted := hcounted
    full := ⟨(hold_writeByte _ _ _).trans h.full.1,
      (size_writeByte _ _ _).trans h.full.2⟩
    ram := by
      show (host.1.writeByte cpu.regs.hl.toWord v).readByte = _
      funext a
      rw [readByte_writeByte h.full.1 h.full.2, hanswers,
        Direction.stored_snoc, hlength, Function.update_apply, ← h.ram,
        h.counted.hl]
    device := (congrArg Prod.snd hanswers).symm }

/-- One pass puts out one byte more. -/
theorem Outlet.pass (h : Outlet device direction start ram state j cpu host)
    (interrupts : InterruptBus (FlatMemory × π)) :
    let rig := FlatRig.beside device interrupts
    let bus := Bus.ofParts (FlatMemory.bus rig.view rig.update) rig.ports
      rig.interrupts
    let pass := Block.output direction bus cpu.pastOpcode host
    pass.1.1 = (start.bc.high - UInt8.ofNat (j + 1) != 0)
      ∧ Outlet device direction start ram state (j + 1) pass.1.2 pass.2 := by
  intro rig bus pass
  have hcounted : start.PortCounted direction (j + 1) pass.1.2.regs :=
    h.counted.pass rfl rfl rfl rfl
  have hleft : pass.1.1 = (pass.1.2.regs.bc.high != 0) := rfl
  refine ⟨by rw [hleft, hcounted.bc], hcounted, h.still, ?_⟩
  show (device.output pass.1.2.regs.bc.toWord
    (host.1.readByte cpu.regs.hl.toWord) host.2).2 = _
  rw [outputWrites_succ, device.outputs_snoc, hcounted.port, h.device, h.still,
    h.counted.hl]

-- =============================================================== the loops

/-- The passes of INIR and INDR, where no target is an opcode byte. -/
theorem loop_intake (interrupts : InterruptBus (FlatMemory × π))
    {windows : FetchMap Unit} (hplain : windows.Plain) {peek : UInt16 → UInt8}
    (hfirst : peek start.pc = 0xED)
    (hsecond : peek (start.pc + 1) = direction.inputCode)
    (hspared : ∀ i < passesOfByte start.bc.high,
      direction.ahead start.hl.toWord i ≠ start.pc
        ∧ direction.ahead start.hl.toWord i ≠ start.pc + 1) :
    Loop ((FlatRig.beside device interrupts).bus windows) start.pc
      direction.inputCode .input direction (passesOfByte start.bc.high)
      (Intake device direction start peek state) := by
  rw [(FlatRig.beside device interrupts).bus_eq hplain]
  have hkept : ∀ {j cpu host}, j < passesOfByte start.bc.high →
      Intake device direction start peek state j cpu host → ∀ {a},
      (∀ i < passesOfByte start.bc.high,
        direction.ahead start.hl.toWord i ≠ a) →
      host.1.readByte a = peek a := by
    intro j cpu host hj h a hapart
    have hlength := length_answers device start j state
    rw [h.ram, Direction.stored_of_ne]
    exact fun i hi => hapart i (by omega)
  exact {
    opcode := direction.ofExtendedOpcode_inputCode
    code := fun hj h => {
      first := Prod.ext
        ((hkept hj h fun i hi => (hspared i hi).1).trans hfirst) rfl
      second := Prod.ext
        ((hkept hj h fun i hi => (hspared i hi).2).trans hsecond) rfl }
    pass := fun hj h => by
      obtain ⟨hmore, hnext⟩ := h.pass interrupts
      exact ⟨hmore.trans (bne_sub_byte hj), hnext⟩
    rewound := fun h => { h with counted := { h.counted with } } }

/-- The passes of OTIR and OTDR, which change no byte. -/
theorem loop_outlet (interrupts : InterruptBus (FlatMemory × π))
    {windows : FetchMap Unit} (hplain : windows.Plain)
    (hfirst : ram.readByte start.pc = 0xED)
    (hsecond : ram.readByte (start.pc + 1) = direction.outputCode) :
    Loop ((FlatRig.beside device interrupts).bus windows) start.pc
      direction.outputCode .output direction (passesOfByte start.bc.high)
      (Outlet device direction start ram state) := by
  rw [(FlatRig.beside device interrupts).bus_eq hplain]
  exact {
    opcode := direction.ofExtendedOpcode_outputCode
    code := fun _ h => {
      first := Prod.ext
        ((congrArg (·.readByte start.pc) h.still).trans hfirst) rfl
      second := Prod.ext
        ((congrArg (·.readByte (start.pc + 1)) h.still).trans hsecond) rfl }
    pass := fun hj h => by
      obtain ⟨hmore, hnext⟩ := h.pass interrupts
      exact ⟨hmore.trans (bne_sub_byte hj), hnext⟩
    rewound := fun h => { h with counted := { h.counted with } } }

end

-- ============================================================= the theorem

/-- A block instruction of the ports has run through its `n` passes from `start`
on: the registers behind it, and the T-states. -/
structure RunsThrough (direction : Direction) (start : Registers) (n : Nat)
    (last : Registers) (used : Nat) : Prop where
  pc : last.pc = start.pc + 2
  hl : last.hl.toWord = direction.ahead start.hl.toWord n
  b : last.bc.high = 0
  c : last.bc.low = start.bc.low
  de : last.de = start.de
  zero : last.f.z = true
  used : used = 21 * (n - 1) + 16

/-- The passes of a loop that counts in B run it through, and not before the
last of them. -/
theorem Loop.runsThrough {σ : Type} {bus : Bus σ} {op : UInt8}
    {action : BlockAction} {direction : Direction} {z : Z80} {host : σ}
    {after : Nat → Cpu → σ → Prop} (h : Loop bus z.cpu.regs.pc op action
      direction (passesOfByte z.cpu.regs.bc.high) after)
    (hquiet : z.cpu.Quiet) (hstart : after 0 z.cpu host)
    (hcounted : ∀ {j cpu host}, after j cpu host →
      z.cpu.regs.PortCounted direction j cpu.regs) :
    let n := passesOfByte z.cpu.regs.bc.high
    let reached := steps bus n z host
    RunsThrough direction z.cpu.regs n reached.1.2.cpu.regs reached.1.1
      ∧ (∀ j < n, (steps bus j z host).1.2.cpu.regs.pc = z.cpu.regs.pc)
      ∧ after n reached.1.2.cpu reached.2 := by
  intro n reached
  have hn : 0 < n := (passesOfByte_bounds _).1
  have hrun : ∀ {j}, j ≤ n → _ := fun hj => h.run hquiet rfl hstart hn hj
  obtain ⟨hused, -, hpc, hafter⟩ := hrun (Nat.le_refl n)
  rw [if_neg (Nat.lt_irrefl n)] at hused hpc
  have hlast := hcounted hafter
  have hb : reached.1.2.cpu.regs.bc.high = 0 :=
    (congrArg Pair.high hlast.bc).trans
      ((sub_byte_eq_zero_iff hn (Nat.le_refl n)).2 rfl)
  refine ⟨?_, fun j hj => ?_, hafter⟩
  · exact {
      pc := hpc
      hl := hlast.hl
      b := hb
      c := by rw [hlast.bc]
      de := hlast.de
      zero := (hlast.zero hn).trans (beq_iff_eq.2 hb)
      used := hused }
  · obtain ⟨-, -, hpc, -⟩ := hrun (Nat.le_of_lt hj)
    rwa [if_pos hj] at hpc

/-- INIR, INDR, OTIR and OTDR move just B bytes, in order. Take RAM of full size
that nobody holds, with any windows onto it at their own addresses, any device
behind the ports with a recorder in front of it, and a core that is awake with
no request pending; let `n` be B, or 256 for zero.

- With INIR or INDR at PC, and neither opcode byte among the `n` targets: the
  instruction runs through in `n` steps. The device has been read `n` times, at
  the ports with C below and B, B - 1 and so on above. The answers are stored
  from HL on in their order, and nothing else in RAM changes.
- With OTIR or OTDR at PC: likewise, and the device has been written the `n`
  bytes from HL on, at the ports with B - 1, B - 2 and so on above. RAM stays
  as it is.

Run through, an instruction leaves PC behind it, B zero, HL `n` places on, C
and DE as they were, and Z set, and has taken `21 * (n - 1) + 16` T-states. -/
theorem block_ports_in_order (device : PortBus π)
    (interrupts : InterruptBus (FlatMemory × π × List Access))
    {windows : FetchMap Unit} (hplain : windows.Plain) (direction : Direction)
    {z : Z80} {ram : FlatMemory} (hfree : ram.hold = .free)
    (hsize : ram.bytes.size = FlatMemory.addressSpace) (hquiet : z.cpu.Quiet)
    (hfirst : ram.readByte z.cpu.regs.pc = 0xED) (state : π)
    (log : List Access) :
    let bus := (FlatRig.beside device.recorded interrupts).bus windows
    let start := z.cpu.regs
    let n := passesOfByte start.bc.high
    let port := fun i =>
      (Pair.mk (start.bc.high - UInt8.ofNat i) start.bc.low).toWord
    let place := direction.ahead start.hl.toWord
    let reached := fun j => steps bus j z (ram, state, log)
    (ram.readByte (start.pc + 1) = direction.inputCode →
      (∀ i < n, place i ≠ start.pc ∧ place i ≠ start.pc + 1) →
        let ports := (List.range n).map port
        let answers := (device.inputs ports state).1
        RunsThrough direction start n (reached n).1.2.cpu.regs (reached n).1.1
          ∧ (∀ j < n, (reached j).1.2.cpu.regs.pc = start.pc)
          ∧ (reached n).2.2 = ((device.inputs ports state).2,
              log ++ List.zipWith .input ports answers)
          ∧ answers.length = n
          ∧ (reached n).2.1.readByte
            = direction.stored start.hl.toWord answers ram.readByte
          ∧ (∀ i < n, answers[i]? = some ((reached n).2.1.readByte (place i)))
          ∧ ∀ a, (∀ i < n, place i ≠ a) →
            (reached n).2.1.readByte a = ram.readByte a)
    ∧ (ram.readByte (start.pc + 1) = direction.outputCode →
        let writes :=
          (List.range n).map fun i => (port (i + 1), ram.readByte (place i))
        RunsThrough direction start n (reached n).1.2.cpu.regs (reached n).1.1
          ∧ (∀ j < n, (reached j).1.2.cpu.regs.pc = start.pc)
          ∧ (reached n).2.1 = ram
          ∧ (reached n).2.2 = ((device.outputs writes state).2,
              log ++ writes.map fun (port, v) => .output port v)) := by
  intro bus start n port place reached
  refine ⟨fun hsecond hspared => ?_, fun hsecond => ?_⟩
  · intro ports answers
    have hloop : Loop bus start.pc direction.inputCode .input direction n
        (Intake device.recorded direction start ram.readByte (state, log)) :=
      loop_intake interrupts hplain hfirst hsecond hspared
    -- the invariant of the loop, at its first boundary
    have hstart : Intake device.recorded direction start ram.readByte
        (state, log) 0 z.cpu (ram, state, log) :=
      ⟨.first _ _, ⟨hfree, hsize⟩, rfl, rfl⟩
    obtain ⟨hthrough, hinside, hlast⟩ :=
      hloop.runsThrough hquiet hstart (·.counted)
    have hports : start.inputPorts n = ports := rfl
    have hdevice := hlast.device
    have hram := hlast.ram
    rw [hports, device.inputs_recorded] at hdevice hram
    have hlength : answers.length = n := length_answers device start n state
    have hbound : answers.length ≤ 256 :=
      hlength ▸ (passesOfByte_bounds start.bc.high).2
    refine ⟨hthrough, hinside, hdevice, hlength, hram, fun i hi => ?_,
      fun a hapart => ?_⟩
    · have hin : i < answers.length := hlength.symm ▸ hi
      have hbyte : (reached n).2.1.readByte (place i) = answers[i] :=
        (congrFun hram _).trans (Direction.stored_ahead (by omega) hin)
      rw [hbyte, List.getElem?_eq_getElem hin]
    · exact (congrFun hram a).trans
        (Direction.stored_of_ne fun i hi => hapart i (hlength ▸ hi))
  · intro writes
    have hloop : Loop bus start.pc direction.outputCode .output direction n
        (Outlet device.recorded direction start ram (state, log)) :=
      loop_outlet interrupts hplain hfirst hsecond
    have hstart : Outlet device.recorded direction start ram (state, log) 0
        z.cpu (ram, state, log) := ⟨.first _ _, rfl, rfl⟩
    obtain ⟨hthrough, hinside, hlast⟩ :=
      hloop.runsThrough hquiet hstart (·.counted)
    -- what the recorder saw is what the device was written
    have hwrites : start.outputWrites direction ram.readByte n = writes := rfl
    have hdevice := hlast.device
    rw [hwrites, device.outputs_recorded] at hdevice
    exact ⟨hthrough, hinside, hlast.still, hdevice⟩

/-- A device with a count: a read gives it and raises it, a write sets it. -/
def countingDevice : PortBus UInt8 where
  input _ count := (count, count + 1)
  output _ v _ := ((), v)

/-- Two bytes each way. INIR reads them from ports 0210h and 0110h and stores
them at the last address and the first; OTIR writes its own two bytes, at
ports 0110h and 0010h. -/
theorem block_ports_in_order_wraps :
    let bus := (FlatRig.beside countingDevice.recorded .unconnected).bus .empty
    let taking : Z80 :=
      { cpu := { Cpu.powerOn with regs := { Registers.powerOn with
      pc := 0x0100, bc := ⟨0x02, 0x10⟩, hl := ⟨0xFF, 0xFF⟩ } } }
    let giving : Z80 :=
      { cpu := { Cpu.powerOn with regs := { Registers.powerOn with
      pc := 0x0100, bc := ⟨0x02, 0x10⟩, hl := ⟨0x01, 0x00⟩ } } }
    let taken := steps bus 2 taking (extendedAt 0x0100 0xB2, 0x5A, [])
    let given := steps bus 2 giving (extendedAt 0x0100 0xB3, 0x5A, [])
    ((FetchMap.empty : FetchMap Unit).Plain ∧ taking.cpu.Quiet
      ∧ giving.cpu.Quiet)
      ∧ (∀ op, (extendedAt 0x0100 op).hold = .free
          ∧ (extendedAt 0x0100 op).bytes.size = FlatMemory.addressSpace
          ∧ (extendedAt 0x0100 op).readByte 0x0100 = 0xED
          ∧ (extendedAt 0x0100 op).readByte 0x0101 = op)
      ∧ (∀ i < 2, Direction.up.ahead taking.cpu.regs.hl.toWord i
        ≠ taking.cpu.regs.pc
          ∧ Direction.up.ahead taking.cpu.regs.hl.toWord i
            ≠ taking.cpu.regs.pc + 1)
      ∧ taken.2.2 = (0x5C, [.input 0x0210 0x5A, .input 0x0110 0x5B])
      ∧ taken.2.1.readByte 0xFFFF = 0x5A
      ∧ taken.2.1.readByte 0x0000 = 0x5B
      ∧ taken.1.2.cpu.regs.pc = 0x0102
      ∧ given.2.2 = (0xB3, [.output 0x0110 0xED, .output 0x0010 0xB3])
      ∧ given.1.2.cpu.regs.bc.high = 0
      ∧ given.1.1 = 37 := by
  intro bus taking giving taken given
  have hspared : ∀ i < 2, Direction.up.ahead taking.cpu.regs.hl.toWord i
      ≠ taking.cpu.regs.pc
      ∧ Direction.up.ahead taking.cpu.regs.hl.toWord i
        ≠ taking.cpu.regs.pc + 1 := by decide
  have hcode : ∀ op, (extendedAt 0x0100 op).readByte 0x0100 = 0xED
      ∧ (extendedAt 0x0100 op).readByte 0x0101 = op := code_extendedAt 0x0100
  have hsize := size_extendedAt 0x0100
  have htaking : taking.cpu.Quiet := ⟨rfl, rfl, rfl⟩
  have hgiving : giving.cpu.Quiet := ⟨rfl, rfl, rfl⟩
  have hn : passesOfByte taking.cpu.regs.bc.high = 2 := by decide
  obtain ⟨hinput, -⟩ :=
    block_ports_in_order countingDevice .unconnected plain_empty .up
      (z := taking) rfl (hsize 0xB2) htaking (hcode 0xB2).1 0x5A []
  obtain ⟨htook, -, hread, -, -, hstored, -⟩ := hinput (hcode 0xB2).2
    fun i hi => hspared i (hn ▸ hi)
  obtain ⟨-, houtput⟩ :=
    block_ports_in_order countingDevice .unconnected plain_empty .up
      (z := giving) rfl (hsize 0xB3) hgiving (hcode 0xB3).1 0x5A []
  obtain ⟨hgave, -, -, hwritten⟩ := houtput (hcode 0xB3).2
  rw [show passesOfByte giving.cpu.regs.bc.high = 2 from hn] at hgave hwritten
  rw [hn] at htook hread hstored
  have hports : (List.range 2).map (fun i =>
      (Pair.mk (taking.cpu.regs.bc.high - UInt8.ofNat i)
        taking.cpu.regs.bc.low).toWord)
        = [0x0210, 0x0110] := by decide
  have hanswers : countingDevice.inputs [0x0210, 0x0110] 0x5A
      = ([0x5A, 0x5B], 0x5C) := rfl
  rw [hports, hanswers] at hread hstored
  have hplaces : Direction.up.ahead taking.cpu.regs.hl.toWord 0 = 0xFFFF
      ∧ Direction.up.ahead taking.cpu.regs.hl.toWord 1 = 0x0000 := by decide
  have hfirst : some 0x5A = some (taken.2.1.readByte _) := hstored 0 (by decide)
  have hlast : some 0x5B = some (taken.2.1.readByte _) := hstored 1 (by decide)
  rw [hplaces.1] at hfirst
  rw [hplaces.2] at hlast
  have hwrites : (List.range 2).map (fun i =>
      ((Pair.mk (giving.cpu.regs.bc.high - UInt8.ofNat (i + 1))
          giving.cpu.regs.bc.low).toWord,
        (extendedAt 0x0100 0xB3).readByte
          (Direction.up.ahead giving.cpu.regs.hl.toWord i)))
        = [(0x0110, 0xED), (0x0010, 0xB3)] := by
    have hplaces : Direction.up.ahead giving.cpu.regs.hl.toWord 0 = 0x0100
        ∧ Direction.up.ahead giving.cpu.regs.hl.toWord 1 = 0x0101 := by decide
    rw [show List.range 2 = [0, 1] from rfl, List.map_cons, List.map_cons,
      hplaces.1, hplaces.2, (hcode 0xB3).1, (hcode 0xB3).2]
    decide
  rw [hwrites] at hwritten
  exact ⟨⟨plain_empty, htaking, hgiving⟩, fun op => ⟨rfl, hsize op, hcode op⟩,
    hspared, hread, (Option.some.inj hfirst).symm, (Option.some.inj hlast).symm,
    htook.pc, hwritten, hgave.b, hgave.used⟩

end ConsoleBoard.Z80
