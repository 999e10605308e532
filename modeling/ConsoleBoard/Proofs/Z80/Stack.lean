/-
The stack, and the way back from an interrupt.

Words go onto the stack and come off it in the opposite order, whatever SP is:
SP wraps, and so does each of the two bytes of a word. The words stay apart
because `n` of them need 2n bytes below the old SP, and these are different
addresses up to a full round (`not_below_word`). So the words pushed later
leave the first one alone, and the induction is from the first one pushed
(`unwind`): it is the last one to come off.

An interrupt is one such push, of PC (`accepted`), and RETN is one pop
(`FlatRig.AtReturn.step_eq`). Whatever happens in between, PC and SP come back
if SP and the two bytes are as they were.
-/
import Mathlib.Logic.Function.Basic
import ConsoleBoard.Proofs.Z80.Interrupt
import ConsoleBoard.Proofs.Z80.Transfer

namespace ConsoleBoard.Z80

open Micro
open FlatMemory (size_writeByte hold_writeByte)

variable {σ : Type}

-- ========================================================= pushes and pops

/-- Push one word after another. -/
def pushAll (ws : List UInt16) : Micro σ Unit := forM ws push

/-- Pop `n` words, in the order in which they come. -/
def popAll : Nat → Micro σ (List UInt16)
  | 0 => return []
  | n + 1 => do
      let ws ← popAll n
      return ws ++ [← pop]

/-- The address is one of the `n` below a stack pointer. -/
def Below (sp : UInt16) (n : Nat) (a : UInt16) : Prop := (sp - 1 - a).toNat < n

/-- The bytes below the next word are among those below this one. -/
theorem Below.behind {sp a : UInt16} {n : Nat} (h : Below (sp - 2) n a) :
    Below sp (n + 2) a := by
  unfold Below at h ⊢
  have hsp := sp.toNat_lt
  have ha := a.toNat_lt
  simp only [UInt16.toNat_sub, UInt16.reduceToNat] at h ⊢
  omega

/-- The two bytes of a word are among those below its stack pointer. -/
theorem below_word (sp : UInt16) (n : Nat) :
    Below sp (n + 2) (sp - 2) ∧ Below sp (n + 2) (sp - 2 + 1) := by
  unfold Below
  have hsp := sp.toNat_lt
  simp only [UInt16.toNat_sub, UInt16.toNat_add, UInt16.reduceToNat]
  omega

/-- The bytes below a word do not come round to it. -/
theorem not_below_word (sp : UInt16) {n : Nat} (hn : n ≤ 65534) :
    ¬Below (sp - 2) n (sp - 2) ∧ ¬Below (sp - 2) n (sp - 2 + 1) := by
  unfold Below
  have hsp := sp.toNat_lt
  simp only [UInt16.toNat_sub, UInt16.toNat_add, UInt16.reduceToNat]
  omega

-- ============================================================ words in RAM

namespace FlatRig

variable {rig : FlatRig σ}

/-- The host with a word written. -/
def store (rig : FlatRig σ) (a w : UInt16) (host : σ) : σ :=
  rig.update (·.writeByte (a + 1) (Pair.ofWord w).high)
    (rig.update (·.writeByte a (Pair.ofWord w).low) host)

/-- The word that is read at an address. -/
def word (rig : FlatRig σ) (a : UInt16) (host : σ) : UInt16 :=
  (Pair.mk ((rig.view host).readByte (a + 1))
    ((rig.view host).readByte a)).toWord

variable {host : σ} {a w : UInt16}

/-- A byte written leaves the memory full. -/
private theorem full_write_iff (hlawful : rig.Lawful) (v : UInt8) :
    rig.Full (rig.update (·.writeByte a v) host) ↔ rig.Full host := by
  refine ⟨fun h => ?_, fun h => h.write hlawful a v⟩
  obtain ⟨hfree, hsize⟩ := h
  rw [hlawful, hold_writeByte] at hfree
  rw [hlawful, size_writeByte] at hsize
  exact ⟨hfree, hsize⟩

theorem full_store_iff (hlawful : rig.Lawful) :
    rig.Full (rig.store a w host) ↔ rig.Full host :=
  (full_write_iff hlawful _).trans (full_write_iff hlawful _)

/-- A word stored is its two bytes in memory. -/
theorem Full.readByte_store (h : rig.Full host) (hlawful : rig.Lawful)
    (a w : UInt16) :
    (rig.view (rig.store a w host)).readByte
      = Function.update
        (Function.update (rig.view host).readByte a (Pair.ofWord w).low)
          (a + 1) (Pair.ofWord w).high := by
  unfold store
  rw [(h.write hlawful _ _).readByte_write hlawful, h.readByte_write hlawful]

/-- A word reads back as it was written while its two bytes stay. -/
theorem Full.word_of_stored (h : rig.Full host) (hlawful : rig.Lawful)
    {host' : σ} (hlow : (rig.view host').readByte a
      = (rig.view (rig.store a w host)).readByte a)
    (hhigh : (rig.view host').readByte (a + 1)
      = (rig.view (rig.store a w host)).readByte (a + 1)) :
    rig.word a host' = w := by
  rw [h.readByte_store hlawful, Function.update_of_ne (ne_add_one a),
    Function.update_self] at hlow
  rw [h.readByte_store hlawful, Function.update_self] at hhigh
  unfold word
  rw [hlow, hhigh]
  exact Pair.toWord_ofWord w

end FlatRig

/-- The core with another stack pointer. -/
def Cpu.withSp (cpu : Cpu) (sp : UInt16) : Cpu :=
  { cpu with regs := { cpu.regs with sp := sp } }

section

variable {rig : FlatRig σ} {windows : FetchMap Unit}

/-- PUSH stores below SP. -/
private theorem push_eq (hplain : windows.Plain) (w : UInt16) (cpu : Cpu)
    (host : σ) :
    push w (rig.bus windows) cpu host
      = (((), cpu.withSp (cpu.regs.sp - 2)),
        rig.store (cpu.regs.sp - 2) w host) := by
  rw [rig.bus_eq hplain]
  rfl

/-- POP takes the word that SP points to. -/
private theorem pop_eq (hplain : windows.Plain) (cpu : Cpu) (host : σ) :
    pop (rig.bus windows) cpu host
      = ((rig.word cpu.regs.sp host, cpu.withSp (cpu.regs.sp + 2)), host) := by
  rw [rig.bus_eq hplain]
  rfl

private theorem pushAll_cons (bus : Bus σ) (w : UInt16) (ws : List UInt16)
    (cpu : Cpu) (host : σ) :
    pushAll (w :: ws) bus cpu host =
      let first := push w bus cpu host
      pushAll ws bus first.1.2 first.2 := rfl

private theorem popAll_succ (bus : Bus σ) (n : Nat) (cpu : Cpu) (host : σ) :
    popAll (n + 1) bus cpu host =
      let before := popAll n bus cpu host
      let last := pop bus before.1.2 before.2
      ((before.1.1 ++ [last.1.1], last.1.2), last.2) := rfl

/-- Pushing words and popping as many leaves the core as it was, and RAM but for
the bytes below SP. -/
theorem unwind (hlawful : rig.Lawful) (hplain : windows.Plain)
    {ws : List UInt16} (hlen : ws.length ≤ 32768) (cpu : Cpu) {host : σ}
    (hfull : rig.Full host) :
    let pushed := pushAll ws (rig.bus windows) cpu host
    let popped := popAll ws.length (rig.bus windows) pushed.1.2 pushed.2
    popped.1.1 = ws.reverse ∧ popped.1.2 = cpu
      ∧ ∀ a, ¬Below cpu.regs.sp (2 * ws.length) a →
          (rig.view popped.2).readByte a = (rig.view host).readByte a := by
  -- the first word goes in first and comes out last; `ih` is about those on top
  -- of it, which leave its two bytes alone
  induction ws generalizing cpu host with
  | nil => exact ⟨rfl, rfl, fun _ _ => rfl⟩
  | cons w ws ih =>
      rw [List.length_cons] at hlen
      let cpu₁ := cpu.withSp (cpu.regs.sp - 2)
      let host₁ := rig.store (cpu.regs.sp - 2) w host
      have hfull₁ : rig.Full host₁ := (FlatRig.full_store_iff hlawful).2 hfull
      obtain ⟨hwords, hcore, hkept⟩ := ih (by omega) cpu₁ hfull₁
      have hbound : 2 * ws.length ≤ 65534 := by omega
      obtain ⟨hlow, hhigh⟩ := not_below_word cpu.regs.sp hbound
      have hword : rig.word (cpu.regs.sp - 2) _ = w :=
        hfull.word_of_stored hlawful (hkept _ hlow) (hkept _ hhigh)
      rw [pushAll_cons, push_eq hplain, List.length_cons]
      dsimp only
      rw [popAll_succ]
      dsimp only
      rw [pop_eq hplain, hwords, hcore]
      have hsp : cpu₁.withSp (cpu₁.regs.sp + 2) = cpu := by
        show cpu.withSp (cpu.regs.sp - 2 + 2) = cpu
        rw [UInt16.sub_add_cancel]
        rfl
      refine ⟨?_, hsp, fun a hnot => ?_⟩
      · rw [List.reverse_cons]
        exact congrArg (ws.reverse ++ [·]) hword
      · have hbehind : ¬Below (cpu.regs.sp - 2) (2 * ws.length) a :=
          fun h => hnot h.behind
        obtain ⟨hbelowLow, hbelowHigh⟩ := below_word cpu.regs.sp (2 * ws.length)
        have hapartLow : a ≠ cpu.regs.sp - 2 := fun h => hnot (h ▸ hbelowLow)
        have hapartHigh : a ≠ cpu.regs.sp - 2 + 1 :=
          fun h => hnot (h ▸ hbelowHigh)
        refine (hkept a hbehind).trans ?_
        rw [hfull.readByte_store hlawful, Function.update_of_ne hapartHigh,
          Function.update_of_ne hapartLow]

-- ========================================================== there and back

/-- Taking an interrupt stores PC in the two bytes below SP, in a host that has
at most seen the acknowledge cycle. The non-maskable one leaves IFF2 alone. -/
theorem accepted (rig : FlatRig σ) (hplain : windows.Plain) {cpu : Cpu}
    {request : Interrupt} (htakes : cpu.acceptable = some request) (host : σ) :
    let taken := step (rig.bus windows) cpu host
    taken.1.2.regs.sp = cpu.regs.sp - 2
      ∧ (request = .nmi → taken.1.2.iff2 = cpu.iff2)
      ∧ ∃ host₁, taken.2 = rig.store (cpu.regs.sp - 2) cpu.regs.pc host₁ := by
  intro taken
  have hstack : ∀ host₁, cpu.stack (rig.bus windows) host₁
      = rig.store (cpu.regs.sp - 2) cpu.regs.pc host₁ := by
    intro host₁
    rw [rig.bus_eq hplain]
    rfl
  have hturn : Turn (rig.bus windows) cpu host
      (some request) taken.1.1 taken.1.2 taken.2 :=
    htakes ▸ turn_step (rig.bus windows) cpu host
  generalize taken = behind at hturn ⊢
  obtain ⟨⟨used, after⟩, host'⟩ := behind
  cases hturn with
  | nmi => exact ⟨rfl, fun _ => rfl, host, hstack host⟩
  | restart htakes hmode hdata hhandler =>
      exact ⟨rfl, nofun, _, hstack _⟩
  | vectored htakes hmode hdata hhandler =>
      -- the table is read behind the push, and reading RAM changes nothing
      rw [rig.bus_eq hplain] at hhandler
      obtain ⟨-, rfl⟩ := Prod.mk.inj hhandler
      exact ⟨rfl, nofun, _, rfl⟩

/-- The core is awake and takes nothing here, and RETN or RETI stands at PC. -/
structure FlatRig.AtReturn (rig : FlatRig σ) (cpu : Cpu) (host : σ) : Prop where
  ready : cpu.acceptable = none
  awake : cpu.halted = false
  first : (rig.view host).readByte cpu.regs.pc = 0xED
  second : Instruction.ofExtendedOpcode
      ((rig.view host).readByte (cpu.regs.pc + 1)) = .retn

/-- A step at RETN or RETI goes where the top of the stack says, lets IFF1
become IFF2 and tells the interrupt handler. -/
theorem FlatRig.AtReturn.step_eq (hplain : windows.Plain) {cpu : Cpu} {host : σ}
    (h : rig.AtReturn cpu host) :
    let target := rig.word cpu.regs.sp host
    step (rig.bus windows) cpu host
      = ((14, { cpu.pastOpcode with
          iff1 := cpu.iff2
          regs := { cpu.pastOpcode.regs with
            sp := cpu.regs.sp + 2, pc := target, wz := target } }),
          (rig.interrupts.finished host).2) := by
  intro target
  rw [ConsoleBoard.Z80.step_eq, h.ready, h.awake, rig.bus_eq hplain]
  let bus := Bus.ofParts (FlatMemory.bus rig.view rig.update) rig.ports
    rig.interrupts
  let op := (rig.view host).readByte (cpu.regs.pc + 1)
  have hcode : bus.Extended cpu.regs.pc op host := ⟨Prod.ext h.first rfl, rfl⟩
  have hpaged : instruction bus cpu host
      = perform pageCost (Instruction.ofExtendedOpcode op) bus
        cpu.pastOpcode host :=
    instruction_paged rfl hcode.first hcode.second
  show instruction bus cpu host = _
  rw [hpaged, perform_eq, h.second]
  rfl

-- RETN and RETI are one instruction here
example : Instruction.ofExtendedOpcode 0x45 = .retn
    ∧ Instruction.ofExtendedOpcode 0x4D = .retn :=
  ⟨rfl, rfl⟩

/-- A handler is about to return: RETN or RETI is next, and SP and the two
stacked bytes are as they were where it was entered. -/
structure FlatRig.Returns (rig : FlatRig σ) (entered : Cpu) (ram : FlatMemory)
    (cpu : Cpu) (host : σ) : Prop where
  next : rig.AtReturn cpu host
  sp : cpu.regs.sp = entered.regs.sp
  low : (rig.view host).readByte entered.regs.sp = ram.readByte entered.regs.sp
  high : (rig.view host).readByte (entered.regs.sp + 1)
      = ram.readByte (entered.regs.sp + 1)

end

/-- Stack discipline on RAM of full size that nobody holds, with any windows
onto it at their own addresses.

- Push up to 32768 words at any SP, and pop as many. They come back in the
  opposite order, the core with its SP is as it was, and only the bytes below
  SP have changed, two for each word.
- Take an interrupt at any boundary, and let RAM still be of full size behind
  the acknowledge cycle, which may reach it. Whatever the handler then does,
  where it comes to RETN or RETI with SP and the two stacked bytes as they were
  on entry, that step leads back to the PC and SP of the boundary. IFF1 becomes
  IFF2, so the return from a non-maskable interrupt gives back an IFF1 that
  agreed with IFF2. The step does to the host what one call of `finished` does,
  so the interrupt handler is told once. -/
theorem stack_discipline (rig : FlatRig σ) (hlawful : rig.Lawful)
    {windows : FetchMap Unit} (hplain : windows.Plain) :
    (∀ (ws : List UInt16) (cpu : Cpu) (host : σ), ws.length ≤ 32768 →
      rig.Full host →
      let pushed := pushAll ws (rig.bus windows) cpu host
      let popped := popAll ws.length (rig.bus windows) pushed.1.2 pushed.2
      popped.1.1 = ws.reverse
        ∧ popped.1.2 = cpu
        ∧ ∀ a, ¬Below cpu.regs.sp (2 * ws.length) a →
            (rig.view popped.2).readByte a = (rig.view host).readByte a)
    ∧ ∀ (request : Interrupt) (cpu : Cpu) (host : σ),
      cpu.acceptable = some request →
        let entered := step (rig.bus windows) cpu host
        rig.Full entered.2 → ∀ (cpu' : Cpu) (host' : σ),
          rig.Returns entered.1.2 (rig.view entered.2) cpu' host' →
          let left := step (rig.bus windows) cpu' host'
          left.1.2.regs.pc = cpu.regs.pc
            ∧ left.1.2.regs.sp = cpu.regs.sp
            ∧ left.1.2.iff1 = cpu'.iff2
            ∧ (request = .nmi → cpu.iff1 = cpu.iff2 →
              cpu'.iff2 = entered.1.2.iff2 →
                left.1.2.iff1 = cpu.iff1)
            ∧ left.2 = (rig.interrupts.finished host').2 := by
  refine ⟨fun ws cpu host hlen hfull => unwind hlawful hplain hlen cpu hfull,
    ?_⟩
  intro request cpu host htakes entered hfull cpu' host' hreturns left
  obtain ⟨hsp, hiff2, host₁, hstored⟩ := accepted rig hplain htakes host
  obtain ⟨hnext, hback, hlow, hhigh⟩ := hreturns
  rw [hsp] at hback hlow hhigh
  rw [hstored] at hfull hlow hhigh
  have hfull₁ : rig.Full host₁ := (FlatRig.full_store_iff hlawful).1 hfull
  -- what the handler finds on top is the PC that was stacked
  have htop : rig.word cpu'.regs.sp host' = cpu.regs.pc := by
    rw [hback]
    exact hfull₁.word_of_stored hlawful hlow hhigh
  have hleft : left = _ := hnext.step_eq hplain
  rw [hleft]
  refine ⟨htop, ?_, rfl, fun hnmi hagree hkept => ?_, rfl⟩
  · show cpu'.regs.sp + 2 = cpu.regs.sp
    rw [hback, UInt16.sub_add_cancel]
  · exact (hkept.trans (hiff2 hnmi)).trans hagree.symm

/-- Two words around the wrap, and a non-maskable interrupt whose handler is
RETN alone: PC is stacked at FFFFh and 0000h. -/
theorem stack_discipline_wraps :
    let rig : FlatRig FlatMemory :=
      ⟨id, fun change ram => change ram, .unconnected, .unconnected⟩
    let bus := rig.bus .empty
    let ram := extendedAt 0x0066 0x45
    let cpu : Cpu := { Cpu.powerOn with
      regs := { Registers.powerOn with pc := 0x4321, sp := 0x0001 }
      iff1 := true, iff2 := true, nmiPending := true }
    let pushed := pushAll [0x1234, 0x5678] bus cpu ram
    let entered := step bus cpu ram
    let left := step bus entered.1.2 entered.2
    (rig.Lawful ∧ (FetchMap.empty : FetchMap Unit).Plain ∧ rig.Full ram)
      ∧ cpu.acceptable = some .nmi
      ∧ rig.Full entered.2
      ∧ rig.Returns entered.1.2 (rig.view entered.2) entered.1.2 entered.2
      ∧ (popAll 2 bus pushed.1.2 pushed.2).1.1 = [0x5678, 0x1234]
      ∧ left.1.2.regs.pc = 0x4321
      ∧ left.1.2.regs.sp = 0x0001
      ∧ left.1.2.iff1 = true := by
  intro rig bus ram cpu pushed entered left
  have hlawful : rig.Lawful := fun _ _ => rfl
  have hfull : rig.Full ram := ⟨rfl, size_extendedAt _ _⟩
  have htakes : cpu.acceptable = some .nmi := rfl
  have hentered : entered.2 = rig.store (cpu.regs.sp - 2) cpu.regs.pc ram := rfl
  have hfull' : rig.Full entered.2 := by
    rw [hentered]
    exact (FlatRig.full_store_iff hlawful).2 hfull
  have hread : ∀ a, a ≠ cpu.regs.sp - 2 → a ≠ cpu.regs.sp - 2 + 1 →
      (rig.view entered.2).readByte a = ram.readByte a := fun a hlow hhigh => by
    rw [hentered, hfull.readByte_store hlawful, Function.update_of_ne hhigh,
      Function.update_of_ne hlow]
    rfl
  have hcode := code_extendedAt 0x0066 0x45
  have hfirst : (rig.view entered.2).readByte 0x0066 = 0xED :=
    (hread _ (by decide) (by decide)).trans hcode.1
  have hsecond : (rig.view entered.2).readByte 0x0067 = 0x45 :=
    (hread _ (by decide) (by decide)).trans hcode.2
  have hreturns : rig.Returns entered.1.2
      (rig.view entered.2) entered.1.2 entered.2 := {
    next := ⟨rfl, rfl, hfirst, congrArg Instruction.ofExtendedOpcode hsecond⟩
    sp := rfl
    low := rfl
    high := rfl }
  obtain ⟨hstack, hinterrupt⟩ := stack_discipline rig hlawful plain_empty
  obtain ⟨hwords, -⟩ := hstack [0x1234, 0x5678] cpu ram (by decide) hfull
  obtain ⟨hpc, hsp, -, hiff1, -⟩ :=
    hinterrupt .nmi cpu ram htakes hfull' _ _ hreturns
  have hleft : left = step bus entered.1.2 entered.2 := rfl
  rw [hleft]
  exact ⟨⟨hlawful, plain_empty, hfull⟩, htakes, hfull', hreturns,
    hwords, hpc, hsp,
    hiff1 rfl rfl rfl⟩

end ConsoleBoard.Z80
