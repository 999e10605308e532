/-
LDIR and LDDR copy byte by byte.

A pass is one assignment in RAM (`Direction.copied_succ`), so a byte that has
been copied may be copied on: where the target overlaps what is still to be
read, the bytes in between are repeated. RAM changes under the instruction,
but not its own two bytes (`Direction.copied_of_ne`), so every pass finds it
there and `Transfer` holds from boundary to boundary.

# The memory behind a pass

`Direction.copied` is the meaning of the loop, written without the processor:
assignments one after another, each from the memory that the last one left. The
processor meets it on a host whose RAM is full and free (`FlatRig.Full`), where
a byte written is read back (`Full.readByte_write`), so memory in the loop is
`copied` after as many passes. Apart and overlapping ranges need no cases.
-/
import Mathlib.Logic.Function.Basic
import ConsoleBoard.Proofs.Z80.MemoryForm
import ConsoleBoard.Proofs.Z80.Repeat
import ConsoleBoard.Proofs.Z80.Windows

namespace ConsoleBoard.Z80

open FlatMemory (size_writeByte hold_writeByte)

variable {σ : Type}

-- ========================================================= the assignments

namespace Direction

/-- The second opcode byte of LDIR, or of LDDR. -/
def transferCode : Direction → UInt8
  | up => 0xB0
  | down => 0xB8

/-- RAM after `n` assignments of one byte each, one after the other. -/
def copied (direction : Direction) (source target : UInt16) (n : Nat)
    (ram : UInt16 → UInt8) : UInt16 → UInt8 :=
  (List.range n).foldl
    (fun now i => Function.update now (direction.ahead target i)
      (now (direction.ahead source i)))
    ram

variable {direction : Direction} {source target : UInt16} {n : Nat}
  {ram : UInt16 → UInt8}

/-- One more byte is copied, with the memory that the others have left. -/
theorem copied_succ :
    direction.copied source target (n + 1) ram =
      let now := direction.copied source target n ram
      Function.update now (direction.ahead target n)
        (now (direction.ahead source n)) := by
  unfold copied
  rw [List.range_succ, List.foldl_append]
  rfl

/-- What is no target keeps its byte. -/
theorem copied_of_ne {a : UInt16} (h : ∀ i < n, direction.ahead target i ≠ a) :
    direction.copied source target n ram a = ram a := by
  induction n with
  | zero => rfl
  | succ n ih =>
      rw [copied_succ]
      dsimp only
      rw [Function.update_of_ne (h n (Nat.lt_succ_self n)).symm,
        ih fun i hi => h i (Nat.lt_succ_of_lt hi)]

/-- Copied onto the next place, a byte goes all the way. -/
theorem copied_overlap {i : Nat} (hi : i ≤ n) :
    direction.copied source (direction.step source) n ram
      (direction.ahead source i)
      = ram source := by
  induction n generalizing i with
  | zero =>
      rw [Nat.le_zero.1 hi, ahead_zero]
      rfl
  | succ n ih =>
      rw [copied_succ, ahead_step]
      dsimp only
      -- the new target may be a place of before, which gets the same byte again
      rw [ih (Nat.le_refl n), Function.update_apply]
      split
      · rfl
      next hother =>
        have hne : i ≠ n + 1 := fun h => hother (congrArg _ h)
        exact ih (by omega)

theorem ofExtendedOpcode_transferCode :
    Instruction.ofExtendedOpcode direction.transferCode
      = .block .load direction true := by
  cases direction <;> rfl

end Direction

-- ================================================================ full RAM

/-- The RAM of the rig has all its addresses, and nobody holds it. -/
structure FlatRig.Full (rig : FlatRig σ) (host : σ) : Prop where
  free : (rig.view host).hold = .free
  size : (rig.view host).bytes.size = FlatMemory.addressSpace

/-- Changes of the RAM are what is seen of it afterwards. -/
def FlatRig.Lawful (rig : FlatRig σ) : Prop :=
  ∀ change host, rig.view (rig.update change host) = change (rig.view host)

/-- The two bytes of a word are at different addresses. -/
theorem ne_add_one (a : UInt16) : a ≠ a + 1 := by
  have ha := a.toNat_lt
  simp only [ne_eq, ← UInt16.toNat_inj, UInt16.toNat_add, UInt16.reduceToNat]
  omega

/-- RAM of zeros but for an instruction of the extended page. -/
def extendedAt (a : UInt16) (op : UInt8) : FlatMemory :=
  (FlatMemory.zeroed.writeByte a 0xED).writeByte (a + 1) op

/-- The example fills all of memory. -/
theorem size_extendedAt (a : UInt16) (op : UInt8) :
    (extendedAt a op).bytes.size = FlatMemory.addressSpace := by
  show ((FlatMemory.zeroed.writeByte a 0xED).writeByte (a + 1) op).bytes.size
    = _
  rw [size_writeByte, size_writeByte]
  exact Array.size_replicate

private theorem readByte_extendedAt (a : UInt16) (op : UInt8) (a' : UInt16) :
    (extendedAt a op).readByte a'
      = if a' = a + 1 then op
        else if a' = a then 0xED
        else FlatMemory.zeroed.readByte a' := by
  have hzeroed : FlatMemory.zeroed.bytes.size = FlatMemory.addressSpace :=
    Array.size_replicate
  have hfirst := (size_writeByte FlatMemory.zeroed a 0xED).trans hzeroed
  show ((FlatMemory.zeroed.writeByte a 0xED).writeByte (a + 1) op).readByte a'
    = _
  rw [readByte_writeByte rfl hfirst, readByte_writeByte rfl hzeroed]

/-- Where the two bytes of the instruction are. -/
theorem code_extendedAt (a : UInt16) (op : UInt8) :
    (extendedAt a op).readByte a = 0xED
      ∧ (extendedAt a op).readByte (a + 1) = op := by
  rw [readByte_extendedAt, readByte_extendedAt, if_neg (ne_add_one a),
    if_pos rfl, if_pos rfl]
  exact ⟨rfl, rfl⟩

namespace FlatRig

variable {rig : FlatRig σ} {host : σ}

theorem Full.write (h : rig.Full host) (hlawful : rig.Lawful) (a : UInt16)
    (v : UInt8) :
    rig.Full (rig.update (·.writeByte a v) host) where
  free := by rw [hlawful, hold_writeByte, h.free]
  size := by rw [hlawful, size_writeByte, h.size]

/-- A byte written is read back, and no other byte changes. -/
theorem Full.readByte_write (h : rig.Full host) (hlawful : rig.Lawful)
    (a : UInt16) (v : UInt8) :
    (rig.view (rig.update (·.writeByte a v) host)).readByte
      = Function.update (rig.view host).readByte a v := by
  funext a'
  rw [hlawful, readByte_writeByte h.free h.size, Function.update_apply]

end FlatRig

-- ========================================================== the boundaries

/-- The core and its host `j` passes behind the first boundary. -/
structure Transfer (rig : FlatRig σ) (direction : Direction) (start : Registers)
    (ram : UInt16 → UInt8) (j : Nat) (cpu : Cpu) (host : σ) : Prop where
  counted : start.Counted direction j cpu.regs
  de : cpu.regs.de.toWord = direction.ahead start.de.toWord j
  kept : cpu.regs.f.s = start.f.s ∧ cpu.regs.f.z = start.f.z
  written : 0 < j → cpu.regs.f.p = (cpu.regs.bc.toWord != 0)
    ∧ cpu.regs.f.h = false ∧ cpu.regs.f.n = false
  full : rig.Full host
  ram : (rig.view host).readByte
      = direction.copied start.hl.toWord start.de.toWord j ram

namespace Transfer

variable {rig : FlatRig σ} {direction : Direction} {start : Registers}
  {ram : UInt16 → UInt8}
  {j : Nat} {cpu : Cpu} {host : σ}

theorem first {cpu : Cpu} (h : rig.Full host) :
    Transfer rig direction cpu.regs (rig.view host).readByte 0 cpu host where
  counted := .first _ _
  de := (Direction.ahead_zero _ _).symm
  kept := ⟨rfl, rfl⟩
  written := nofun
  full := h
  ram := rfl

/-- A pass leads to the next boundary. -/
theorem pass (h : Transfer rig direction start ram j cpu host)
    (hlawful : rig.Lawful) (ports : PortBus σ) (interrupts : InterruptBus σ) :
    let bus := Bus.ofParts (FlatMemory.bus rig.view rig.update) ports interrupts
    let pass := Block.load direction bus cpu.pastOpcode host
    pass.1.1 = (start.bc.toWord - UInt16.ofNat (j + 1) != 0)
      ∧ Transfer rig direction start ram (j + 1) pass.1.2 pass.2 := by
  intro bus pass
  have hcounted : start.Counted direction (j + 1) pass.1.2.regs :=
    h.counted.pass rfl rfl rfl rfl rfl
  have hleft : pass.1.1 = (pass.1.2.regs.bc.toWord != 0) := by
    show (cpu.regs.bc.toWord - 1 != 0)
      = ((Pair.ofWord (cpu.regs.bc.toWord - 1)).toWord != 0)
    rw [Pair.toWord_ofWord]
  refine ⟨hcounted.bc ▸ hleft, ?_⟩
  exact {
    counted := hcounted
    de := by
      show (Pair.ofWord (direction.step cpu.regs.de.toWord)).toWord = _
      rw [Pair.toWord_ofWord, h.de, Direction.step_ahead]
    kept := h.kept
    written := fun _ => ⟨hleft, rfl, rfl⟩
    full := h.full.write hlawful _ _
    -- one assignment more, into what the ones before have left
    ram := by
      show (rig.view (rig.update (·.writeByte cpu.regs.de.toWord
        ((rig.view host).readByte cpu.regs.hl.toWord)) host)).readByte = _
      rw [h.full.readByte_write hlawful, h.ram, h.counted.hl, h.de,
        Direction.copied_succ] }

/-- What is no target has the byte that it had at the start. -/
theorem readByte_of_ne (h : Transfer rig direction start ram j cpu host)
    {a : UInt16} (hspared : ∀ i < j, direction.ahead start.de.toWord i ≠ a) :
    (rig.view host).readByte a = ram a := by
  rw [h.ram, Direction.copied_of_ne hspared]

end Transfer

/-- The passes of LDIR and LDDR, where no target is an opcode byte. -/
theorem loop_transfer {rig : FlatRig σ} (hlawful : rig.Lawful)
    {windows : FetchMap Unit} (hplain : windows.Plain) {direction : Direction}
    {start : Registers} {ram : UInt16 → UInt8} (hfirst : ram start.pc = 0xED)
    (hsecond : ram (start.pc + 1) = direction.transferCode)
    (hspared : ∀ i < passesOf start.bc.toWord,
      direction.ahead start.de.toWord i ≠ start.pc
        ∧ direction.ahead start.de.toWord i ≠ start.pc + 1) :
    Loop (rig.bus windows) start.pc direction.transferCode .load direction
      (passesOf start.bc.toWord) (Transfer rig direction start ram) := by
  rw [rig.bus_eq hplain]
  exact {
    opcode := Direction.ofExtendedOpcode_transferCode
    code := fun hj h => {
      first := by
        have hbyte :=
          h.readByte_of_ne fun i hi => (hspared i (Nat.lt_trans hi hj)).1
        exact Prod.ext (hbyte.trans hfirst) rfl
      second := by
        have hbyte :=
          h.readByte_of_ne fun i hi => (hspared i (Nat.lt_trans hi hj)).2
        exact Prod.ext (hbyte.trans hsecond) rfl }
    pass := fun hj h => by
      obtain ⟨hmore, hnext⟩ := h.pass hlawful rig.ports rig.interrupts
      exact ⟨hmore.trans (bne_sub_ofNat hj), hnext⟩
    rewound := fun h => { h with counted := { h.counted with } } }

-- ============================================================= the theorem

/-- LDIR and LDDR copy byte by byte. Take RAM of full size that nobody holds,
with any windows onto it at their own addresses, and a core that is awake
with no request pending, with LDIR or LDDR at PC; let `n` be BC, or 65536
for zero, and let neither opcode byte be among the `n` targets.

- After each of the passes HL, DE and BC have counted the bytes, RAM is what
  as many assignments leave, one after the other, and R has counted two
  fetches for each; A and the flags S, Z and C are as before.
- Between two passes PC is on the first opcode byte, and BC is what is left.
- After `n` steps PC is behind the instruction, BC is zero, P/V, H and N are
  clear, and `21 * (n - 1) + 16` T-states are used. -/
theorem block_transfer_in_order (rig : FlatRig σ) (hlawful : rig.Lawful)
    {windows : FetchMap Unit} (hplain : windows.Plain) (direction : Direction)
    {z : Z80} {host : σ} (hfull : rig.Full host) (hquiet : z.cpu.Quiet)
    (hfirst : (rig.view host).readByte z.cpu.regs.pc = 0xED)
    (hsecond : (rig.view host).readByte (z.cpu.regs.pc + 1)
      = direction.transferCode)
    (hspared : ∀ i < passesOf z.cpu.regs.bc.toWord,
      direction.ahead z.cpu.regs.de.toWord i ≠ z.cpu.regs.pc
        ∧ direction.ahead z.cpu.regs.de.toWord i ≠ z.cpu.regs.pc + 1) :
    let start := z.cpu.regs
    let n := passesOf start.bc.toWord
    let reached := fun j => steps (rig.bus windows) j z host
    (∀ j ≤ n,
      let now := (reached j).1.2.cpu.regs
      now.hl.toWord = direction.ahead start.hl.toWord j
        ∧ now.de.toWord = direction.ahead start.de.toWord j
        ∧ now.bc.toWord = start.bc.toWord - UInt16.ofNat j
        ∧ rig.Full (reached j).2
        ∧ (rig.view (reached j).2).readByte
            = direction.copied start.hl.toWord start.de.toWord j
              (rig.view host).readByte
        ∧ now.r = Registers.refresh start.r (2 * j)
        ∧ now.a = start.a
        ∧ now.f.s = start.f.s ∧ now.f.z = start.f.z ∧ now.f.c = start.f.c)
    ∧ (∀ j, 0 < j → j < n →
        (reached j).1.2.cpu.regs.pc = start.pc
          ∧ (reached j).1.2.cpu.regs.bc.toWord.toNat = n - j
          ∧ (reached j).1.1 = 21 * j)
    ∧ (let last := (reached n).1.2.cpu.regs
       last.pc = start.pc + 2 ∧ last.bc.toWord = 0
        ∧ last.f.p = false ∧ last.f.h = false ∧ last.f.n = false
        ∧ (reached n).1.1 = 21 * (n - 1) + 16) := by
  intro start n reached
  have hn : 0 < n := passesOf_pos _
  have hloop : Loop (rig.bus windows) start.pc direction.transferCode .load
      direction n (Transfer rig direction start (rig.view host).readByte) :=
    loop_transfer hlawful hplain hfirst hsecond hspared
  -- at every boundary `j` the invariant gives the whole of the first clause
  have hrun : ∀ {j}, j ≤ n → _ :=
    fun hj => hloop.run hquiet rfl (.first hfull) hn hj
  refine ⟨fun j hj => ?_, fun j hpos hj => ?_, ?_⟩
  · obtain ⟨-, -, -, h⟩ := hrun hj
    exact ⟨h.counted.hl, h.de, h.counted.bc, h.full, h.ram, h.counted.r,
      h.counted.a, h.kept.1, h.kept.2, h.counted.c⟩
  · obtain ⟨hused, -, hpc, h⟩ := hrun (Nat.le_of_lt hj)
    rw [if_pos hj] at hused hpc
    refine ⟨hpc, ?_, hused⟩
    rw [h.counted.bc, toNat_sub_ofNat hpos (Nat.le_of_lt hj)]
  · obtain ⟨hused, -, hpc, h⟩ := hrun (Nat.le_refl n)
    rw [if_neg (Nat.lt_irrefl n)] at hused hpc
    have hzero : (reached n).1.2.cpu.regs.bc.toWord = 0 :=
      h.counted.bc.trans ((sub_ofNat_eq_zero_iff hn (Nat.le_refl n)).2 rfl)
    obtain ⟨hp, hh, hnClear⟩ := h.written hn
    refine ⟨hpc, hzero, ?_, hh, hnClear, hused⟩
    rw [hp, hzero]
    rfl

/-- LDIR at 0100h, and a byte at the last address. -/
def spreadingByte : FlatMemory := (extendedAt 0x0100 0xB0).writeByte 0xFFFF 0x5A

private theorem readByte_spreadingByte (a : UInt16) :
    spreadingByte.readByte a
      = if a = 0xFFFF then 0x5A
        else if a = 0x0101 then 0xB0
        else if a = 0x0100 then 0xED
        else FlatMemory.zeroed.readByte a := by
  show ((extendedAt 0x0100 0xB0).writeByte 0xFFFF 0x5A).readByte a = _
  rw [readByte_writeByte rfl (size_extendedAt _ _), readByte_extendedAt]
  rfl

/-- Two bytes from FFFFh to 0000h: the source wraps onto the first target, so
the byte is copied on. -/
theorem block_transfer_in_order_spreads :
    let rig : FlatRig FlatMemory :=
      ⟨id, fun change ram => change ram, .unconnected, .unconnected⟩
    let z : Z80 := { cpu := { Cpu.powerOn with regs := { Registers.powerOn with
      pc := 0x0100, bc := ⟨0x00, 0x02⟩, de := ⟨0x00, 0x00⟩,
      hl := ⟨0xFF, 0xFF⟩ } } }
    let run := steps (rig.bus .empty) 2 z spreadingByte
    (rig.Lawful ∧ (FetchMap.empty : FetchMap Unit).Plain
      ∧ rig.Full spreadingByte ∧ z.cpu.Quiet)
      ∧ spreadingByte.readByte 0x0100 = 0xED
      ∧ spreadingByte.readByte 0x0101 = 0xB0
      ∧ (∀ i < 2, Direction.up.ahead z.cpu.regs.de.toWord i ≠ z.cpu.regs.pc
          ∧ Direction.up.ahead z.cpu.regs.de.toWord i ≠ z.cpu.regs.pc + 1)
      ∧ run.1.1 = 37
      ∧ run.1.2.cpu.regs.pc = 0x0102
      ∧ run.1.2.cpu.regs.hl.toWord = 0x0001
      ∧ (rig.view run.2).readByte 0x0000 = 0x5A
      ∧ (rig.view run.2).readByte 0x0001 = 0x5A := by
  intro rig z run
  have hlawful : rig.Lawful := fun _ _ => rfl
  have hfull : rig.Full spreadingByte := ⟨rfl, by
    show ((extendedAt 0x0100 0xB0).writeByte 0xFFFF 0x5A).bytes.size = _
    rw [size_writeByte, size_extendedAt]⟩
  have hquiet : z.cpu.Quiet := ⟨rfl, rfl, rfl⟩
  have hfirst : spreadingByte.readByte 0x0100 = 0xED := readByte_spreadingByte _
  have hsecond : spreadingByte.readByte 0x0101 = 0xB0 :=
    readByte_spreadingByte _
  have hspared : ∀ i < 2, Direction.up.ahead z.cpu.regs.de.toWord i
      ≠ z.cpu.regs.pc
      ∧ Direction.up.ahead z.cpu.regs.de.toWord i
        ≠ z.cpu.regs.pc + 1 := by decide
  have hn : passesOf z.cpu.regs.bc.toWord = 2 := by decide
  obtain ⟨hpasses, -, hlast⟩ :=
    block_transfer_in_order rig hlawful plain_empty .up (z := z)
      hfull hquiet hfirst hsecond fun i hi => hspared i (hn ▸ hi)
  rw [hn] at hpasses hlast
  obtain ⟨hhl, -, -, -, hram, -⟩ := hpasses 2 (Nat.le_refl 2)
  obtain ⟨hpc, -, -, -, -, hused⟩ := hlast
  have hsource : z.cpu.regs.hl.toWord = 0xFFFF := by decide
  have htarget : z.cpu.regs.de.toWord = Direction.up.step 0xFFFF := by decide
  rw [hsource, htarget] at hram
  have hview : rig.view spreadingByte = spreadingByte := rfl
  have hspread : ∀ i ≤ 2, (rig.view run.2).readByte
      (Direction.up.ahead 0xFFFF i) = 0x5A :=
    fun i hi => by
      rw [hram, Direction.copied_overlap hi, hview, readByte_spreadingByte,
        if_pos rfl]
  have hfirstTarget : Direction.up.ahead 0xFFFF 1 = 0x0000 := by decide
  have hlastTarget : Direction.up.ahead 0xFFFF 2 = 0x0001 := by decide
  rw [hsource, hlastTarget] at hhl
  exact ⟨⟨hlawful, plain_empty, hfull, hquiet⟩, hfirst, hsecond, hspared,
    hused, hpc, hhl,
    hfirstTarget ▸ hspread 1 (by decide), hlastTarget ▸ hspread 2 (by decide)⟩

end ConsoleBoard.Z80
