/-
The frame of a step.

The two bytes at PC decide what a step can reach. They select an instruction,
on one of the pages, or the doubly prefixed page, or a prefix byte that is held
(`Decoded`), and a step that takes no interrupt is that and nothing else
(`dispatched_instruction`). What the first two may write is known from their
footprints, and the third sets one shadow, so one equation describes the core
behind any of them (`Dispatched.frame_eq`). The law (`Boundary.Framed`) reads it
part by part: each register beside the general ones, each flip-flop and each
shadow changes in the instructions that are named for it, and the lines of the
host in none.
-/
import ConsoleBoard.Proofs.Z80.Refresh

namespace ConsoleBoard.Z80

open Micro

variable {σ : Type}

-- ================================================================ decoding

/-- What the bytes at PC select: an instruction, the doubly prefixed page of an
index register, or a prefix byte that is held. -/
inductive Decoded
  | runs (i : Instruction)
  | indexedBits (x : Index)
  | held

namespace Decoded

/-- What a byte selects behind the prefix of `x`. -/
def ofPrefixed (x : Index) (op : UInt8) : Decoded :=
  if IsPrefix op ∨ op = 0xED then held
  else if op = 0xCB then indexedBits x
  else runs (.ofOpcode x op)

/-- What the two bytes at PC select. -/
def ofBytes (first second : UInt8) : Decoded :=
  match first with
  | 0xCB => runs (.ofBitOpcode second)
  | 0xED => runs (.ofExtendedOpcode second)
  | 0xDD => ofPrefixed .ix second
  | 0xFD => ofPrefixed .iy second
  | _ => runs (.ofOpcode .hl first)

/-- An opcode of the plain page needs no second byte. -/
theorem ofBytes_plain {first : UInt8} (h : first ∉ pageOpcodes)
    (second : UInt8) :
    ofBytes first second = runs (.ofOpcode .hl first) := by
  unfold ofBytes
  split
  · exact absurd (by decide) h
  · exact absurd (by decide) h
  · exact absurd (by decide) h
  · exact absurd (by decide) h
  · rfl

/-- The registers that may be written, beside the general ones. -/
def writes : Decoded → Part → Bool
  | runs i => i.writes
  | indexedBits _ => fun _ => false
  | held => fun _ => false

/-- What happens beside the registers. -/
def controls : Decoded → Cpu → Cpu
  | runs i, cpu => i.controls cpu
  | indexedBits _, cpu => cpu
  | held, cpu => { cpu with prefixShadow := true }

end Decoded

/-- What an instruction does that the bytes at PC select. -/
inductive Dispatched (bus : Bus σ) (cpu : Cpu) :
    Decoded → (Nat × Cpu) × σ → Prop
  | runs (i : Instruction) (lead n : Nat) (host : σ) :
    Dispatched bus cpu (.runs i)
      (perform lead i bus (cpu.unshadowed.skipped n) host)
  | indexedBits (x : Index) (host : σ) :
    Dispatched bus cpu (.indexedBits x)
      (indexedBits x bus (cpu.unshadowed.skipped 2) host)
  | held (host : σ) : Dispatched bus cpu .held ((4, cpu.pastPrefix), host)

/-- A prefixed opcode is dispatched as the bytes say. -/
private theorem dispatched_prefixed {first second : UInt8} {x : Index}
    (hselects : Selects first x) {bus : Bus σ} {cpu : Cpu}
    {host host' host'' : σ}
    (hfirst : bus.fetch cpu.regs.pc host = (first, host'))
    (hsecond : bus.fetch (cpu.regs.pc + 1) host' = (second, host'')) :
    Dispatched bus cpu (.ofPrefixed x second) (instruction bus cpu host) := by
  have hfirst' : bus.fetch cpu.unshadowed.regs.pc host
      = (first, host') := hfirst
  have hsecond' : bus.fetch (cpu.unshadowed.skipped 1).regs.pc host'
      = (second, host'') := hsecond
  unfold Decoded.ofPrefixed
  -- the decoder asks for a held byte first, then for the CB page
  by_cases hheld : IsPrefix second ∨ second = 0xED
  · have hrun : instruction bus cpu host = ((4, cpu.pastPrefix), host'') := by
      show (fetchOpcode >>= dispatch) bus cpu.unshadowed host = _
      rw [fetchOpcode_bind hfirst', hselects.dispatch_eq,
        indexed_held x hsecond' hheld]
      rfl
    rw [if_pos hheld, hrun]
    exact .held host''
  · rw [if_neg hheld]
    by_cases hbits : second = 0xCB
    · subst hbits
      rw [if_pos rfl, instruction_paged hselects.dispatch_eq hfirst hsecond]
      exact .indexedBits x host''
    · have hpage : second ∉ pageOpcodes := by
        simp only [pageOpcodes, List.mem_cons, List.not_mem_nil,
          or_false, not_or]
        unfold IsPrefix at hheld
        simp only [not_or] at hheld
        exact ⟨hbits, hheld.1.1, hheld.2, hheld.1.2⟩
      rw [if_neg hbits, instruction_prefixed hselects hfirst hsecond hpage]
      exact .runs _ _ _ _

/-- An instruction does what the two bytes at PC select. -/
theorem dispatched_instruction {bus : Bus σ} {cpu : Cpu} {host host' host'' : σ}
    {first second : UInt8}
    (hfirst : bus.fetch cpu.regs.pc host = (first, host'))
    (hsecond : bus.fetch (cpu.regs.pc + 1) host' = (second, host'')) :
    Dispatched bus cpu (.ofBytes first second) (instruction bus cpu host) := by
  by_cases hpage : first ∈ pageOpcodes
  · simp only [pageOpcodes, List.mem_cons, List.not_mem_nil, or_false] at hpage
    rcases hpage with rfl | rfl | rfl | rfl
    · rw [instruction_paged rfl hfirst hsecond]
      exact .runs _ _ _ _
    · exact dispatched_prefixed .ix hfirst hsecond
    · rw [instruction_paged rfl hfirst hsecond]
      exact .runs _ _ _ _
    · exact dispatched_prefixed .iy hfirst hsecond
  · rw [Decoded.ofBytes_plain hpage, instruction_plain hfirst hpage]
    exact .runs _ _ _ _

/-- The core behind an instruction, through the frame of what it writes. -/
theorem Dispatched.frame_eq {bus : Bus σ} {cpu : Cpu} {d : Decoded}
    {after : (Nat × Cpu) × σ} (h : Dispatched bus cpu d after) :
    ∃ n, after.1.2.frame d.writes
      = (d.controls (cpu.unshadowed.skipped n)).frame d.writes := by
  cases h with
  | runs i lead n host => exact ⟨n, frame_execute i bus _ host⟩
  | indexedBits x host => exact ⟨2, keeps_indexedBits x bus _ host⟩
  | held host => exact ⟨1, rfl⟩

-- =============================================================== the parts

/-- The only instruction that writes the part, where there is one. -/
def Part.owner? : Part → Option Instruction
  | shadowAf => some .exchangeAf
  | shadows => some .exchangeShadows
  | i => some .storeI
  | r => some .storeR
  | ix | iy | sp => none

namespace Decoded

variable {d : Decoded}

/-- What writes a part runs an instruction that writes it. -/
theorem exists_of_writes {p : Part} (h : d.writes p = true) :
    ∃ i, d = runs i ∧ i.writes p = true := by
  cases d with
  | runs i => exact ⟨i, rfl, h⟩
  | indexedBits x => cases h
  | held => cases h

/-- A part with one owner is written by it alone. -/
theorem eq_owner {p : Part} {i : Instruction} (hp : p.owner? = some i)
    (h : d.writes p = true) : d = runs i := by
  obtain ⟨j, rfl, hj⟩ := exists_of_writes h
  cases p with
  | shadowAf | shadows | i | r =>
      cases hp
      simp only [Instruction.writes] at hj
      split at hj
      · rfl
      · cases hj
  | ix | iy | sp => cases hp

/-- An index register is written on its own page only. -/
theorem ofOpcode_movesPointer {x y : Index} (hy : y ≠ .hl) {op : UInt8}
    (h : (Instruction.ofOpcode x op).movesPointer y = true) : x = y := by
  have hall : ∀ n : Fin 256, (Instruction.ofOpcode x (.ofFin n)).movesPointer y
      = true → x = y := by
    cases x <;> cases y <;> first | exact absurd rfl hy | decide +kernel
  exact hall op.toFin h

private theorem ofBitOpcode_movesPointer {y : Index} (hy : y ≠ .hl)
    (op : UInt8) :
    (Instruction.ofBitOpcode op).movesPointer y = false := by
  have hall : ∀ n : Fin 256, (Instruction.ofBitOpcode (.ofFin n)).movesPointer y
      = false := by
    cases y <;> first | exact absurd rfl hy | decide +kernel
  exact hall op.toFin

private theorem ofExtendedOpcode_movesPointer {y : Index} (hy : y ≠ .hl)
    (op : UInt8) :
    (Instruction.ofExtendedOpcode op).movesPointer y = false := by
  have hall : ∀ n : Fin 256,
      (Instruction.ofExtendedOpcode (.ofFin n)).movesPointer y = false := by
    cases y <;> first | exact absurd rfl hy | decide +kernel
  exact hall op.toFin

/-- Only behind its prefix does an instruction write an index register. -/
theorem first_of_movesPointer {first second b : UInt8} {y : Index}
    {i : Instruction} (hb : Selects b y) (hi : ofBytes first second = runs i)
    (h : i.movesPointer y = true) :
    first = b := by
  have hy : y ≠ .hl := by cases hb <;> nofun
  have hpage : ∀ {a x}, Selects a x → ofPrefixed x second = runs i → a = b := by
    intro a x ha hprefixed
    unfold ofPrefixed at hprefixed
    split at hprefixed
    · cases hprefixed
    · split at hprefixed
      · cases hprefixed
      · cases hprefixed
        obtain rfl := ofOpcode_movesPointer hy h
        cases ha <;> cases hb <;> rfl
  unfold ofBytes at hi
  -- neither the CB nor the ED page names an index register
  split at hi
  · cases hi
    rw [ofBitOpcode_movesPointer hy] at h
    cases h
  · cases hi
    rw [ofExtendedOpcode_movesPointer hy] at h
    cases h
  · exact hpage .ix hi
  · exact hpage .iy hi
  · cases hi
    exact absurd (ofOpcode_movesPointer hy h).symm hy

/-- A prefix is held if it stands before another page byte. -/
private theorem ofPrefixed_eq_held {x : Index} {op : UInt8} :
    ofPrefixed x op = held ↔ IsPrefix op ∨ op = 0xED := by
  unfold ofPrefixed
  by_cases hheld : IsPrefix op ∨ op = 0xED
  · rw [if_pos hheld]
    exact iff_of_true rfl hheld
  · rw [if_neg hheld]
    refine iff_of_false (fun heq => ?_) hheld
    split at heq <;> cases heq

/-- Two bytes are held if the first is a prefix and the second leads to
another page. -/
theorem ofBytes_eq_held {first second : UInt8} :
    ofBytes first second = held ↔ IsPrefix first
      ∧ (IsPrefix second ∨ second = 0xED) := by
  by_cases hfirst : IsPrefix first
  · rw [and_iff_right hfirst]
    rcases hfirst with rfl | rfl
    · exact ofPrefixed_eq_held
    · exact ofPrefixed_eq_held
  · refine iff_of_false (fun heq => ?_) fun h => hfirst h.1
    unfold ofBytes at heq
    split at heq
    · cases heq
    · cases heq
    · exact hfirst (.inl rfl)
    · exact hfirst (.inr rfl)
    · cases heq

-- ==================================================== beside the registers

variable (d : Decoded) (cpu : Cpu)

/-- Only HALT halts the core. -/
theorem halted_controls :
    (d.controls cpu).halted = true ↔ cpu.halted = true ∨ d = runs .halt := by
  cases d with
  | runs i => cases i <;> simp [controls, Instruction.controls]
  | _ => simp [controls]

/-- Only EI sets its shadow. -/
theorem eiShadow_controls :
    (d.controls cpu).eiShadow = true ↔ cpu.eiShadow = true ∨ d = runs .ei := by
  cases d with
  | runs i => cases i <;> simp [controls, Instruction.controls]
  | _ => simp [controls]

/-- Only a held prefix sets its shadow. -/
theorem prefixShadow_controls :
    (d.controls cpu).prefixShadow = true ↔ cpu.prefixShadow = true
      ∨ d = held := by
  cases d with
  | runs i => cases i <;> simp [controls, Instruction.controls]
  | _ => simp [controls]

/-- Only IM changes the interrupt mode. -/
theorem im_controls (h : ∀ mode, d ≠ runs (.im mode)) :
    (d.controls cpu).im = cpu.im := by
  cases d with
  | runs i =>
      cases i
      case im mode => exact absurd rfl (h mode)
      all_goals rfl
  | _ => rfl

/-- Only EI, DI and RETN change the interrupt flip-flops. -/
theorem iff_controls (hei : d ≠ runs .ei) (hdi : d ≠ runs .di)
    (hretn : d ≠ runs .retn) :
    (d.controls cpu).iff1 = cpu.iff1 ∧ (d.controls cpu).iff2 = cpu.iff2 := by
  cases d with
  | runs i =>
      cases i
      case ei => exact absurd rfl hei
      case di => exact absurd rfl hdi
      case retn => exact absurd rfl hretn
      all_goals exact ⟨rfl, rfl⟩
  | _ => exact ⟨rfl, rfl⟩

/-- The control state is not in the registers that a dispatch leaves. -/
theorem regs_controls : (d.controls cpu).regs = cpu.regs := by
  cases d with
  | runs i => exact Z80.regs_controls i cpu
  | _ => rfl

theorem lines_controls : (d.controls cpu).lines = cpu.lines := by
  cases d with
  | runs i => cases i <;> rfl
  | _ => rfl

end Decoded

-- ================================================================= the law

namespace Boundary

variable (b : Boundary σ)

/-- What the bytes at PC select. -/
def decoded : Decoded := .ofBytes b.first b.second

/-- The step from here runs the instruction. -/
def Executes (i : Instruction) : Prop := b.Runs ∧ b.decoded = .runs i

/-- What a step that takes no interrupt may change, part by part. -/
structure Framed (after : Cpu) : Prop where
  shadows : ¬b.Executes .exchangeShadows →
    after.regs.bc2 = b.cpu.regs.bc2 ∧ after.regs.de2 = b.cpu.regs.de2
      ∧ after.regs.hl2 = b.cpu.regs.hl2
  shadowAf : ¬b.Executes .exchangeAf →
    after.regs.a2 = b.cpu.regs.a2 ∧ after.regs.f2 = b.cpu.regs.f2
  ix : ¬(b.Runs ∧ b.first = 0xDD) → after.regs.ix = b.cpu.regs.ix
  iy : ¬(b.Runs ∧ b.first = 0xFD) → after.regs.iy = b.cpu.regs.iy
  i : ¬b.Executes .storeI → after.regs.i = b.cpu.regs.i
  sp : (∀ i, b.Executes i → i.movesSp = false) → after.regs.sp = b.cpu.regs.sp
  im : (∀ mode, ¬b.Executes (.im mode)) → after.im = b.cpu.im
  flipFlops : ¬b.Executes .ei → ¬b.Executes .di → ¬b.Executes .retn →
    after.iff1 = b.cpu.iff1 ∧ after.iff2 = b.cpu.iff2
  ei : b.Executes .ei → after.iff1 = true ∧ after.iff2 = true
  di : b.Executes .di → after.iff1 = false ∧ after.iff2 = false
  retn : b.Executes .retn → after.iff1 = b.cpu.iff2 ∧ after.iff2 = b.cpu.iff2
  halted : after.halted = true ↔ b.cpu.halted = true ∨ b.Executes .halt
  lines : after.lines = b.cpu.lines
  eiShadow : b.Runs → (after.eiShadow = true ↔ b.Executes .ei)
  prefixShadow : b.Runs →
    (after.prefixShadow = true ↔ IsPrefix b.first
      ∧ (IsPrefix b.second ∨ b.second = 0xED))
  resting : ¬b.Runs → after.eiShadow = b.cpu.eiShadow
      ∧ after.prefixShadow = b.cpu.prefixShadow

variable {b}

/-- A refresh cycle of a halted core reaches R alone. -/
theorem framed_refreshed (h : b.cpu.halted = true) :
    b.Framed (b.cpu.refreshed 1) := by
  have hruns : ¬b.Runs := fun hruns => by simp [hruns.2] at h
  exact {
    shadows := fun _ => ⟨rfl, rfl, rfl⟩
    shadowAf := fun _ => ⟨rfl, rfl⟩
    ix := fun _ => rfl
    iy := fun _ => rfl
    i := fun _ => rfl
    sp := fun _ => rfl
    im := fun _ => rfl
    flipFlops := fun _ _ _ => ⟨rfl, rfl⟩
    ei := fun hi => absurd hi.1 hruns
    di := fun hi => absurd hi.1 hruns
    retn := fun hi => absurd hi.1 hruns
    halted := ⟨.inl, fun _ => h⟩
    lines := rfl
    eiShadow := fun hr => absurd hr hruns
    prefixShadow := fun hr => absurd hr hruns
    resting := fun _ => ⟨rfl, rfl⟩ }

/-- A step that runs an instruction dispatches the decoded bytes. -/
private theorem dispatched_step (h : b.Runs) :
    Dispatched b.bus b.cpu b.decoded b.step := by
  rw [step_of_runs h]
  exact dispatched_instruction rfl rfl

/-- An instruction reaches what is named for it. -/
theorem framed_instruction (h : b.Runs) : b.Framed b.step.1.2 := by
  obtain ⟨n, hframe⟩ := (dispatched_step h).frame_eq
  obtain ⟨regs, hafter, hregs⟩ := Cpu.exists_of_frame hframe
  rw [Decoded.regs_controls] at hregs
  have hexecutes : ∀ i, b.Executes i ↔ b.decoded = .runs i :=
    fun i => and_iff_right h
  -- what is not written stays: a register with one owner, by the owner; an
  -- index register, by its prefix; SP, by the class that moves it
  have howned : ∀ {p i}, p.owner? = some i → ¬b.Executes i →
      b.decoded.writes p = false :=
    fun hp hnot => Bool.eq_false_iff.2 fun hw =>
      hnot ⟨h, Decoded.eq_owner hp hw⟩
  have hpointer : ∀ {p y first},
      (∀ i : Instruction, i.writes p = i.movesPointer y) →
      Selects first y → ¬(b.Runs ∧ b.first = first) →
        b.decoded.writes p = false := by
    intro p y first hp hfirst hnot
    refine Bool.eq_false_iff.2 fun hw => hnot ⟨h, ?_⟩
    obtain ⟨i, hi, hmoves⟩ := Decoded.exists_of_writes hw
    exact Decoded.first_of_movesPointer hfirst hi ((hp i).symm.trans hmoves)
  have hsp : (∀ i, b.Executes i → i.movesSp = false) →
      b.decoded.writes .sp = false := by
    intro hnot
    refine Bool.eq_false_iff.2 fun hw => ?_
    obtain ⟨i, hi, hmoves⟩ := Decoded.exists_of_writes hw
    exact absurd ((hnot i ⟨h, hi⟩).symm.trans hmoves) nofun
  rw [hafter]
  exact {
    shadows := fun hnot => hregs.shadows (howned rfl hnot)
    shadowAf := fun hnot => hregs.shadowAf (howned rfl hnot)
    ix := fun hnot => hregs.ix (hpointer (fun _ => rfl) .ix hnot)
    iy := fun hnot => hregs.iy (hpointer (fun _ => rfl) .iy hnot)
    i := fun hnot => hregs.i (howned rfl hnot)
    sp := fun hnot => hregs.sp (hsp hnot)
    im := fun hnot => Decoded.im_controls _ _ fun mode hi => hnot mode ⟨h, hi⟩
    flipFlops := fun hei hdi hretn =>
      Decoded.iff_controls _ _ (fun hi => hei ⟨h, hi⟩) (fun hi => hdi ⟨h, hi⟩)
        (fun hi => hretn ⟨h, hi⟩)
    ei := fun hi => by rw [hi.2]; exact ⟨rfl, rfl⟩
    di := fun hi => by rw [hi.2]; exact ⟨rfl, rfl⟩
    retn := fun hi => by rw [hi.2]; exact ⟨rfl, rfl⟩
    halted := by
      rw [hexecutes]
      exact Decoded.halted_controls _ _
    lines := Decoded.lines_controls _ _
    eiShadow := fun _ => by
      rw [hexecutes]
      exact (Decoded.eiShadow_controls _ _).trans (or_iff_right nofun)
    prefixShadow := fun _ => by
      rw [← Decoded.ofBytes_eq_held]
      exact (Decoded.prefixShadow_controls _ _).trans (or_iff_right nofun)
    resting := fun hnot => absurd h hnot }

end Boundary

/-- The frame law of the instruction set, for a dispatch that accepts no
interrupt, in any state and on any bus. The shadow pairs change in EXX and
EX AF,AF' only, IX and IY behind their own prefix only, I in LD I,A only, SP in
the stack instructions and the loads of SP only, the interrupt mode in the IM
group only, and the flip-flops in EI, DI and RETN only, which set both, clear
both, and copy the second to the first. HALT sets HALTED and nothing clears it.
The vector, the requests, FAULTED and the carried time never change. EI is the
only instruction that leaves its shadow behind, and DD or FD in front of DD, ED
or FD the only one that leaves the other. -/
theorem dispatch_framed (bus : Bus σ) (host : σ) {z : Z80}
    (h : z.cpu.acceptable = none) :
    let after := (stepOnce bus z host).1.2
    (⟨bus, z.cpu, host⟩ : Boundary σ).Framed after.cpu
      ∧ after.clock.carry = z.clock.carry := by
  intro after
  refine ⟨?_, rfl⟩
  have hstep : after.cpu = (⟨bus, z.cpu, host⟩ : Boundary σ).step.1.2 := rfl
  rw [hstep]
  cases hhalted : z.cpu.halted with
  | true =>
      have hasleep : z.cpu.asleep = true := by simp [Cpu.asleep, hhalted, h]
      rw [Boundary.step_of_asleep hasleep]
      exact Boundary.framed_refreshed hhalted
  | false => exact Boundary.framed_instruction ⟨h, hhalted⟩

/-- RAM with `POP IY` in front. -/
def prefixedPop : FlatMemory where
  bytes := #[0xFD, 0xE1]

/-- `POP IY` behind an EI that holds a request off: SP moves, IX and the
flip-flops stay, the request goes on waiting, and no shadow is left. -/
theorem dispatch_framed_pop :
    let bus : Bus FlatMemory :=
      .ofParts (FlatMemory.bus id fun change ram => change ram) .unconnected
        .unconnected
    let z : Z80 :=
      { cpu := { Cpu.powerOn with
          iff1 := true, iff2 := true, irqPending := true, eiShadow := true } }
    let after := (stepOnce bus z prefixedPop).1.2
    z.cpu.acceptable = none
      ∧ after.cpu.regs.sp = 1 ∧ after.cpu.regs.ix = z.cpu.regs.ix
      ∧ after.cpu.iff1 = true ∧ after.cpu.iff2 = true
      ∧ after.cpu.irqPending = true ∧ after.cpu.eiShadow = false := by
  intro bus z after
  have hnone : z.cpu.acceptable = none := rfl
  let b : Boundary FlatMemory := ⟨bus, z.cpu, prefixedPop⟩
  have hfirst : b.first = 0xFD := by decide
  have hpop : b.decoded = .runs (.pop (.pointer .iy)) := by
    have hsecond : b.second = 0xE1 := by decide
    unfold Boundary.decoded
    rw [hfirst, hsecond]
    rfl
  have hother : ∀ i, i ≠ .pop (.pointer .iy) → ¬b.Executes i := by
    rintro i hi ⟨-, hdecoded⟩
    exact hi (Decoded.runs.inj (hdecoded.symm.trans hpop))
  obtain ⟨hframed, -⟩ := dispatch_framed bus prefixedPop hnone
  obtain ⟨hiff1, hiff2⟩ :=
    hframed.flipFlops (hother _ nofun) (hother _ nofun) (hother _ nofun)
  have hruns : b.Runs := ⟨hnone, rfl⟩
  have hirq : after.cpu.irqPending = true :=
    congrArg Lines.irqPending hframed.lines
  refine ⟨hnone, by decide +kernel, hframed.ix ?_, hiff1, hiff2, hirq, ?_⟩
  · rintro ⟨-, hix⟩
    exact absurd (hfirst.symm.trans hix) (by decide)
  · rw [Bool.eq_false_iff]
    intro hshadow
    exact hother .ei nofun ((hframed.eiShadow hruns).1 hshadow)

end ConsoleBoard.Z80
