/-
CPIR and CPDR find the first match.

A search has two reasons to stop, a match and a counter that has run out, and
both may be met by one byte. It makes the least number of passes behind which
there is one of them (`stopsAt`): a pass is the last one exactly if it finds
the byte or leaves nothing to look at (`isLeast_more_iff`). The host is only
read, so every pass sees the same bytes.

# The loop

Before each pass the counter and HL are where the passes so far have led
(`Registers.Counted`), the host is as it was, and the flags tell of the last
comparison (`Search`): Z of a match, P/V of a counter that goes on. So what
decides about another pass stands in the flags that the last one left.
-/
import Mathlib.Data.Nat.Find
import Mathlib.Order.Bounds.Basic
import ConsoleBoard.Proofs.Z80.Displaced
import ConsoleBoard.Proofs.Z80.Repeat

namespace ConsoleBoard.Z80

variable {σ : Type}

-- ========================================================== where it stops

/-- The numbers of bytes behind which a search of `n` bytes has a reason to
stop: the last of them is a match, or there is none left. -/
def stopsAt (found : Nat → Prop) (n : Nat) : Set Nat :=
  {k | 1 ≤ k ∧ k ≤ n ∧ (found (k - 1) ∨ k = n)}

private theorem exists_isLeast_stopsAt (found : Nat → Prop) {n : Nat}
    (hn : 0 < n) :
    ∃ k, IsLeast (stopsAt found n) k := by
  classical
  have hsome : ∃ k, k ∈ stopsAt found n := ⟨n, hn, Nat.le_refl n, .inr rfl⟩
  exact ⟨Nat.find hsome, Nat.find_spec hsome,
    fun m hm => Nat.find_min' hsome hm⟩

/-- A search goes on past a byte exactly if that byte is no match and not the
last one. -/
theorem isLeast_more_iff {found : Nat → Prop} {n k j : Nat}
    (hk : IsLeast (stopsAt found n) k) (hj : j < k) :
    j + 1 < k ↔ j + 1 < n ∧ ¬found j := by
  obtain ⟨⟨-, hle, hstop⟩, hleast⟩ := hk
  constructor
  · intro hmore
    refine ⟨by omega, fun hfound => ?_⟩
    have hearlier : k ≤ j + 1 := hleast ⟨by omega, by omega, .inl hfound⟩
    omega
  · rintro ⟨hleft, hmiss⟩
    rcases hstop with hfound | hlast
    · have hne : k - 1 ≠ j := fun h => hmiss (h ▸ hfound)
      omega
    · omega

-- ========================================================== the boundaries

/-- The second opcode byte of CPIR, or of CPDR. -/
def Direction.searchCode : Direction → UInt8
  | up => 0xB1
  | down => 0xB9

private theorem ofExtendedOpcode_searchCode (direction : Direction) :
    Instruction.ofExtendedOpcode direction.searchCode
      = .block .compare direction true := by
  cases direction <;> rfl

/-- The byte at distance `i` is the one that A holds. -/
def Registers.Finds (start : Registers) (direction : Direction)
    (peek : UInt16 → UInt8) (i : Nat) : Prop :=
  peek (direction.ahead start.hl.toWord i) = start.a

/-- The core `j` passes behind the first boundary, on the host of then. -/
structure Search (direction : Direction) (start : Registers)
    (peek : UInt16 → UInt8) (host : σ) (j : Nat) (cpu : Cpu)
    (now : σ) : Prop where
  counted : start.Counted direction j cpu.regs
  still : now = host
  written : 0 < j → (cpu.regs.f.z = true ↔ start.Finds direction peek (j - 1))
    ∧ cpu.regs.f.p = (cpu.regs.bc.toWord != 0) ∧ cpu.regs.f.n = true

/-- The comparison is zero on a match. -/
theorem sub8_eq_zero_iff (a v : UInt8) :
    (Alu.sub8 a v false).1 = 0 ↔ v = a := by
  show a - v - 0 = 0 ↔ v = a
  rw [UInt8.sub_zero]
  grind

namespace Search

variable {bus : Bus σ} {direction : Direction} {start : Registers}
  {peek : UInt16 → UInt8}
  {host now : σ} {j : Nat} {cpu : Cpu}

/-- A pass leads to the next boundary. -/
theorem pass (h : Search direction start peek host j cpu now)
    (hread : ∀ a, bus.memory.readByte a host = (peek a, host)) :
    let pass := Block.compare direction bus cpu.pastOpcode now
    (pass.1.1 = true ↔ start.bc.toWord - UInt16.ofNat (j + 1) ≠ 0
        ∧ ¬start.Finds direction peek j)
      ∧ Search direction start peek host (j + 1) pass.1.2 pass.2 := by
  obtain ⟨hcounted, rfl, -⟩ := h
  intro pass
  have hnext : start.Counted direction (j + 1) pass.1.2.regs :=
    hcounted.pass rfl rfl rfl rfl rfl
  let result :=
    (Alu.sub8 cpu.regs.a (bus.memory.readByte cpu.regs.hl.toWord now).1 false).1
  have hfound : result = 0 ↔ start.Finds direction peek j := by
    dsimp only [result]
    rw [hread, sub8_eq_zero_iff, hcounted.hl, hcounted.a]
    rfl
  have hleft : cpu.regs.bc.toWord - 1
      = start.bc.toWord - UInt16.ofNat (j + 1) := by
    rw [hcounted.bc, sub_ofNat_succ]
  refine ⟨?_, hnext, congrArg Prod.snd (hread _), fun _ => ⟨?_, ?_, rfl⟩⟩
  · show (cpu.regs.bc.toWord - 1 != 0 && result != 0) = true ↔ _
    rw [Bool.and_eq_true, bne_iff_ne, bne_iff_ne, ne_eq, ne_eq, hleft, hfound]
  · show (result == 0) = true ↔ _
    rw [beq_iff_eq, hfound]
    rfl
  · show (cpu.regs.bc.toWord - 1 != 0) = _
    rw [hnext.bc, hleft]

end Search

/-- The passes of CPIR and CPDR up to the first reason to stop. -/
theorem loop_search {bus : Bus σ} {direction : Direction} {start : Registers}
    {peek : UInt16 → UInt8} {host : σ} {k : Nat}
    (hread : ∀ a, bus.memory.readByte a host = (peek a, host))
    (hcode : bus.Extended start.pc direction.searchCode host)
    (hk : IsLeast
      (stopsAt (start.Finds direction peek) (passesOf start.bc.toWord)) k) :
    Loop bus start.pc direction.searchCode .compare direction k
      (Search direction start peek host) where
  opcode := ofExtendedOpcode_searchCode direction
  code _ h := h.still ▸ hcode
  pass {j cpu now} hj h := by
    obtain ⟨hmore, hnext⟩ := h.pass hread
    refine ⟨?_, hnext⟩
    have hin : j < passesOf start.bc.toWord := Nat.lt_of_lt_of_le hj hk.1.2.1
    rw [← bne_iff_ne, bne_sub_ofNat hin, decide_eq_true_eq,
      ← isLeast_more_iff hk hj] at hmore
    exact Bool.eq_iff_iff.2 (hmore.trans decide_eq_true_iff.symm)
  rewound h := { h with counted := { h.counted with } }

-- ============================================================= the theorem

/-- CPIR and CPDR find the first match. Take a bus whose data reads leave the
host as it is, and a core that is awake with no request pending, with CPIR or
CPDR at PC; let `n` be BC, or 65536 for zero. There is a least number `k` of
bytes, from 1 to `n`, behind which the search has a reason to stop: the last
of them is the one in A, or it is byte `n`. The instruction takes `k` steps,
with PC on its first byte at every boundary before, and `21 * (k - 1) + 16`
T-states. It has then counted `k` bytes in HL and BC, and left A, C and the
host as they were; Z says whether the last byte matched, and P/V whether BC
is not zero, with N set. -/
theorem block_search_first_match {bus : Bus σ} (direction : Direction)
    {peek : UInt16 → UInt8} {z : Z80} {host : σ}
    (hread : ∀ a, bus.memory.readByte a host = (peek a, host))
    (hquiet : z.cpu.Quiet)
    (hcode : bus.Extended z.cpu.regs.pc direction.searchCode host) :
    let start := z.cpu.regs
    let n := passesOf start.bc.toWord
    let found := fun i => peek (direction.ahead start.hl.toWord i) = start.a
    let reached := fun j => steps bus j z host
    ∃ k, IsLeast {k | 1 ≤ k ∧ k ≤ n ∧ (found (k - 1) ∨ k = n)} k
      ∧ (∀ j < k, (reached j).1.2.cpu.regs.pc = start.pc)
      ∧ (reached k).1.1 = 21 * (k - 1) + 16
      ∧ (reached k).2 = host
      ∧ (let last := (reached k).1.2.cpu.regs
         last.pc = start.pc + 2
          ∧ last.hl.toWord = direction.ahead start.hl.toWord k
          ∧ last.bc.toWord = start.bc.toWord - UInt16.ofNat k
          ∧ last.a = start.a
          ∧ (last.f.z = true ↔ found (k - 1))
          ∧ (last.f.p = true ↔ last.bc.toWord ≠ 0)
          ∧ last.f.n = true
          ∧ last.f.c = start.f.c) := by
  intro start n found reached
  obtain ⟨k, hk⟩ := exists_isLeast_stopsAt found (passesOf_pos start.bc.toWord)
  have hpos : 0 < k := hk.1.1
  have hfirst : Search direction start peek host 0 z.cpu host :=
    ⟨.first _ _, rfl, nofun⟩
  -- the loop is run to `k`, where the search stops, not to `n`
  have hrun : ∀ {j}, j ≤ k → _ := fun hj =>
    (loop_search hread hcode hk).run hquiet rfl hfirst hpos hj
  refine ⟨k, hk, fun j hj => ?_, ?_⟩
  · obtain ⟨-, -, hpc, -⟩ := hrun (Nat.le_of_lt hj)
    rwa [if_pos hj] at hpc
  · obtain ⟨hused, -, hpc, h⟩ := hrun (Nat.le_refl k)
    rw [if_neg (Nat.lt_irrefl k)] at hused hpc
    obtain ⟨hz, hp, hn⟩ := h.written hpos
    exact ⟨hused, h.still, hpc, h.counted.hl, h.counted.bc, h.counted.a, hz,
      hp ▸ bne_iff_ne, hn, h.counted.c⟩

/-- CPIR at 0100h, and a byte behind the wrap. -/
def searchedCells : UInt16 → UInt8
  | 0x0001 => 0x5A
  | 0x0100 => 0xED
  | 0x0101 => 0xB1
  | _ => 0

/-- A search through all of memory that starts at the last address and finds
its byte at 0001h, which is the third. -/
theorem block_search_first_match_wraps :
    let z : Z80 := { cpu := { Cpu.powerOn with regs := { Registers.powerOn with
      a := 0x5A, pc := 0x0100, bc := ⟨0x00, 0x00⟩, hl := ⟨0xFF, 0xFF⟩ } } }
    let run := steps Bus.cells 3 z searchedCells
    (∀ a, Bus.cells.memory.readByte a searchedCells
      = (searchedCells a, searchedCells))
      ∧ z.cpu.Quiet
      ∧ Bus.cells.Extended z.cpu.regs.pc Direction.up.searchCode searchedCells
      ∧ run.1.1 = 58
      ∧ run.1.2.cpu.regs.pc = 0x0102
      ∧ run.1.2.cpu.regs.hl.toWord = 0x0002
      ∧ run.1.2.cpu.regs.bc.toWord = 0xFFFD
      ∧ run.1.2.cpu.regs.f.z = true := by
  intro z run
  have hread : ∀ a, Bus.cells.memory.readByte a searchedCells
      = (searchedCells a, searchedCells) := (ramAt_cells searchedCells).read
  have hquiet : z.cpu.Quiet := ⟨rfl, rfl, rfl⟩
  have hcode : Bus.cells.Extended z.cpu.regs.pc Direction.up.searchCode
      searchedCells := ⟨rfl, rfl⟩
  obtain ⟨k, hk, -, hused, -, hpc, hhl, hbc, -, hz, -⟩ :=
    block_search_first_match .up hread hquiet hcode
  have hn : passesOf z.cpu.regs.bc.toWord = 65536 := by decide
  have hfound : searchedCells (Direction.up.ahead z.cpu.regs.hl.toWord (3 - 1))
      = z.cpu.regs.a := by
    decide
  have hmissed : ∀ i < 2,
      searchedCells (Direction.up.ahead z.cpu.regs.hl.toWord i)
        ≠ z.cpu.regs.a := by decide
  have hthird : k = 3 := by
    rw [hn] at hk
    refine hk.unique ⟨⟨by decide, by decide, .inl hfound⟩, ?_⟩
    rintro m ⟨hpos, -, hstop | rfl⟩
    · exact Nat.le_of_not_lt fun hlt => hmissed (m - 1) (by omega) hstop
    · omega
  subst hthird
  have hrun : run = steps Bus.cells 3 z searchedCells := rfl
  dsimp only at hused hpc hhl hbc hz
  rw [hrun]
  exact ⟨hread, hquiet, hcode, hused, hpc, hhl.trans (by decide),
    hbc.trans (by decide),
    hz.2 hfound⟩

end ConsoleBoard.Z80
