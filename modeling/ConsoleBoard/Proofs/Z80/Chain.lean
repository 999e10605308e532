/-
Chains of prefix bytes.

# One held prefix

DD or FD in front of another prefix byte is held: the step fetches both
bytes, gives the second one back, and leaves nothing but a shadow behind
(`Cpu.pastPrefix`), which holds every interrupt off until the next step.

# The chain

The bytes of a chain are held one by one, all but the last in front of an
ordinary opcode, and all of them in front of ED, which takes no index
(`heldBytes`). At each boundary on the way the core is the one of the first
byte, moved on (`Cpu.skipped`), apart from a shadow and from the lines of
its host (`Cpu.IsBehind`). A held prefix takes it to the next
boundary, and a request raised there sets a line, which an instruction does
not look at. So behind the chain stands the instruction that the last
prefix begins, and it runs as if nothing had come before. It is not held
itself, and the chain ends with it (`PrefixChain.ends`).
-/
import ConsoleBoard.Memory.Flat
import ConsoleBoard.Proofs.Z80.Control

namespace ConsoleBoard.Z80

open Micro

variable {σ : Type}

-- ========================================================= one held prefix

/-- A refresh cycle that is taken back has not been. -/
theorem unrefresh_refresh (r : UInt8) :
    Registers.unrefresh (Registers.refresh r 1) = r := by
  apply UInt8.toNat_inj.1
  unfold Registers.unrefresh
  rw [refresh_refresh, toNat_refresh]
  omega

namespace Cpu

/-- The core `n` prefix bytes further on. -/
def skipped (cpu : Cpu) (n : Nat) : Cpu :=
  { cpu with regs := { cpu.regs with
      pc := cpu.regs.pc + UInt16.ofNat n
      r := Registers.refresh cpu.regs.r n } }

private theorem skipped_zero (cpu : Cpu) : cpu.skipped 0 = cpu := by
  unfold skipped
  rw [refresh_zero, show UInt16.ofNat 0 = 0 from rfl, UInt16.add_zero]

/-- Skipping twice is skipping the sum. -/
theorem skipped_skipped (cpu : Cpu) (m n : Nat) :
    (cpu.skipped m).skipped n = cpu.skipped (m + n) := by
  unfold skipped
  rw [refresh_refresh, UInt16.ofNat_add, ← UInt16.add_assoc]

/-- The core behind a prefix byte that is held: no EI is remembered, and no
interrupt is taken at this boundary. -/
def pastPrefix (cpu : Cpu) : Cpu :=
  { cpu.skipped 1 with eiShadow := false, prefixShadow := true }

/-- The core in no shadow. -/
def unshadowed (cpu : Cpu) : Cpu :=
  { cpu with eiShadow := false, prefixShadow := false }

/-- The core in no shadow and with no request pending. -/
def alone (cpu : Cpu) : Cpu :=
  cpu.unshadowed.withLines { cpu.lines with
    irqPending := false, nmiPending := false }

/-- Between prefix bytes nothing is taken. -/
theorem acceptable_of_prefixShadow {cpu : Cpu} (h : cpu.prefixShadow = true) :
    cpu.acceptable = none := by
  unfold acceptable
  rw [if_pos h]

/-- A core with nothing to take runs an instruction. -/
theorem step_alone {cpu : Cpu} (h : cpu.halted = false) (bus : Bus σ)
    (host : σ) :
    step bus cpu.alone host = instruction bus cpu.alone host := by
  have hnone : cpu.alone.acceptable = none := rfl
  rw [step_eq, hnone, show cpu.alone.halted = false from h]
  rfl

end Cpu

/-- The bytes of a prefix. -/
def IsPrefix (b : UInt8) : Prop := b = 0xDD ∨ b = 0xFD

instance (b : UInt8) : Decidable (IsPrefix b) :=
  inferInstanceAs (Decidable (_ ∨ _))

/-- An opcode fetch moves the core one byte on. -/
theorem fetchOpcode_bind {bus : Bus σ} {cpu : Cpu} {host host' : σ} {b : UInt8}
    (h : bus.fetch cpu.regs.pc host = (b, host')) (next : UInt8 → Micro σ Nat) :
    (fetchOpcode >>= next) bus cpu host = next b bus (cpu.skipped 1) host' := by
  show next (bus.fetch cpu.regs.pc host).1 bus (cpu.skipped 1)
    (bus.fetch cpu.regs.pc host).2 = _
  rw [h]

/-- The second byte is given back. -/
theorem heldPrefix_skipped (bus : Bus σ) (cpu : Cpu) (host : σ) :
    heldPrefix bus (cpu.skipped 1) host
      = ((4, { cpu with prefixShadow := true }), host) := by
  have hregs : { cpu.regs with
      pc := cpu.regs.pc + 1 - 1
      r := Registers.unrefresh (Registers.refresh cpu.regs.r 1) }
        = cpu.regs := by
    rw [unrefresh_refresh, UInt16.add_sub_cancel]
  show ((4, { cpu with
    regs := { cpu.regs with
      pc := cpu.regs.pc + 1 - 1
      r := Registers.unrefresh (Registers.refresh cpu.regs.r 1) }
    prefixShadow := true }), host) = _
  rw [hregs]

/-- DD or FD in front of a prefix byte or of ED, behind its own fetch. -/
theorem indexed_held (x : Index) {bus : Bus σ} {cpu : Cpu} {host host' : σ}
    {b : UInt8} (hfetch : bus.fetch cpu.regs.pc host = (b, host'))
    (hb : IsPrefix b ∨ b = 0xED) :
    indexed x bus cpu host
      = ((4, { cpu with prefixShadow := true }), host') := by
  unfold indexed
  rw [fetchOpcode_bind hfetch, ← heldPrefix_skipped]
  rcases hb with (rfl | rfl) | rfl <;> rfl

/-- A prefix byte in front of another one, or of ED, is held. -/
theorem instruction_held {bus : Bus σ} {cpu : Cpu} {host : σ} {a b : UInt8}
    (hfirst : bus.fetch cpu.regs.pc host = (a, host)) (ha : IsPrefix a)
    (hsecond : bus.fetch (cpu.regs.pc + 1) host = (b, host))
    (hb : IsPrefix b ∨ b = 0xED) :
    instruction bus cpu host = ((4, cpu.pastPrefix), host) := by
  have hfirst' : bus.fetch cpu.unshadowed.regs.pc host = (a, host) := hfirst
  show (fetchOpcode >>= dispatch) bus cpu.unshadowed host = _
  rw [fetchOpcode_bind hfirst']
  rcases ha with rfl | rfl
  · exact indexed_held .ix hsecond hb
  · exact indexed_held .iy hsecond hb

-- ============================================== an instruction is not held

/-- What keeps the control state keeps the shadow. -/
private theorem keeps_of_control {α : Type} {m : Micro σ α}
    (h : Keeps Cpu.control m) :
    Keeps Cpu.prefixShadow m := by
  intro bus cpu host
  have hshadow := congrArg Cpu.prefixShadow (h bus cpu host)
  exact hshadow

private theorem keeps_prefixShadow_perform (lead : Nat) (i : Instruction) :
    Keeps Cpu.prefixShadow (perform lead i : Micro σ Nat) := by
  by_cases hi : i.RegistersOnly
  · exact keeps_of_control (control_perform lead hi)
  · cases i
    case halt | di | ei | im | retn => exact fun _ _ _ => rfl
    all_goals exact absurd trivial hi

/-- DD or FD in front of any other byte runs to its end. -/
theorem indexed_ends (x : Index) {bus : Bus σ} {cpu : Cpu} {host : σ}
    {b : UInt8} (hfetch : bus.fetch cpu.regs.pc host = (b, host))
    (hb : ¬IsPrefix b) (hed : b ≠ 0xED) :
    (indexed x bus cpu host).1.2.prefixShadow = cpu.prefixShadow := by
  unfold indexed
  rw [fetchOpcode_bind hfetch]
  split
  · exact absurd (.inl rfl) hb
  · exact absurd rfl hed
  · exact absurd (.inr rfl) hb
  · exact keeps_of_control (control_indexedBits x) bus _ host
  · exact keeps_prefixShadow_perform _ _ bus _ host

-- =============================================================== the chain

/-- Memory has `chain` at `pc`, a run of prefix bytes, and behind it `op`, the
first byte of an instruction. Reading it has no effect on the host. -/
structure PrefixChain (bus : Bus σ) (host : σ) (pc : UInt16)
    (chain : List UInt8) (op : UInt8) : Prop where
  nonempty : chain ≠ []
  prefixes : ∀ b ∈ chain, IsPrefix b
  behind : ¬IsPrefix op
  reads : ∀ i b, (chain ++ [op])[i]? = some b →
    bus.fetch (pc + UInt16.ofNat i) host = (b, host)

/-- The bytes of a chain that are held: the last one is the prefix of the
instruction behind it, unless that is one of the ED page. -/
def heldBytes (chain : List UInt8) (op : UInt8) : Nat :=
  if op = 0xED then chain.length else chain.length - 1

namespace PrefixChain

variable {bus : Bus σ} {host : σ} {pc : UInt16} {chain : List UInt8}
  {op : UInt8}

/-- Each byte of the chain is a prefix that is fetched from its place. -/
private theorem fetch_chain (h : PrefixChain bus host pc chain op) {k : Nat}
    (hk : k < chain.length) :
    ∃ a, IsPrefix a ∧ bus.fetch (pc + UInt16.ofNat k) host = (a, host) := by
  have hbyte : (chain ++ [op])[k]? = some chain[k] := by
    rw [List.getElem?_append_left hk, List.getElem?_eq_getElem hk]
  exact ⟨_, h.prefixes _ (List.getElem_mem hk), h.reads k _ hbyte⟩

/-- Behind the chain the opcode is fetched. -/
private theorem fetch_behind (h : PrefixChain bus host pc chain op) :
    bus.fetch (pc + UInt16.ofNat chain.length) host = (op, host) :=
  h.reads _ _ List.getElem?_concat_length

/-- A held byte stands in front of another prefix byte or of ED. -/
theorem held (h : PrefixChain bus host pc chain op) {k : Nat}
    (hk : k < heldBytes chain op) :
    ∃ a b, IsPrefix a ∧ (IsPrefix b ∨ b = 0xED)
      ∧ bus.fetch (pc + UInt16.ofNat k) host = (a, host)
      ∧ bus.fetch (pc + UInt16.ofNat (k + 1)) host = (b, host) := by
  unfold heldBytes at hk
  have hin : k < chain.length := by split at hk <;> omega
  obtain ⟨a, ha, hfirst⟩ := h.fetch_chain hin
  by_cases hlast : k + 1 < chain.length
  · obtain ⟨b, hb, hsecond⟩ := h.fetch_chain hlast
    exact ⟨a, b, ha, .inl hb, hfirst, hsecond⟩
  · -- the last byte of the chain is held in front of ED only
    have hlength : k + 1 = chain.length := by omega
    have hed : op = 0xED := by
      by_contra hne
      rw [if_neg hne] at hk
      omega
    rw [hlength]
    exact ⟨a, op, ha, .inr hed, hfirst, h.fetch_behind⟩

end PrefixChain

-- ========================================================== the boundaries

/-- A line that a host raises. -/
inductive Request
  | irq (vector : UInt8)
  | nmi
deriving DecidableEq

def Request.raise : Request → Cpu → Cpu
  | irq vector, cpu => cpu.requestIrq vector
  | nmi, cpu => { cpu with nmiPending := true }

/-- The core with lines raised, one after the other. -/
def Cpu.raised (cpu : Cpu) (requests : List Request) : Cpu :=
  requests.foldl (fun cpu request => request.raise cpu) cpu

/-- Requests reach nothing but the lines. -/
theorem raised_eq_withLines (cpu : Cpu) (requests : List Request) :
    ∃ lines, cpu.raised requests = cpu.withLines lines := by
  induction requests generalizing cpu with
  | nil => exact ⟨cpu.lines, rfl⟩
  | cons request rest ih =>
      obtain ⟨lines, hrest⟩ := ih (request.raise cpu)
      refine ⟨lines, hrest.trans ?_⟩
      cases request <;> rfl

/-- The core and the host at each boundary from the first one on: a step, then
the requests that are raised behind it. -/
def boundary (bus : Bus σ) (requests : Nat → List Request) (cpu : Cpu)
    (host : σ) :
    Nat → Cpu × σ
  | 0 => (cpu, host)
  | k + 1 =>
      let now := boundary bus requests cpu host k
      let next := step bus now.1 now.2
      (next.1.2.raised (requests (k + 1)), next.2)

/-- The core is the one of the first boundary moved on by `k` bytes, but for
its shadows and lines, and takes no interrupt. -/
structure Cpu.IsBehind (cpu start : Cpu) (k : Nat) : Prop where
  core : cpu.unshadowed = (start.skipped k).unshadowed.withLines cpu.lines
  refuses : cpu.acceptable = none
  shadow : 0 < k → cpu.prefixShadow = true

namespace Cpu.IsBehind

variable {cpu start : Cpu} {k : Nat}

/-- Before the chain, nothing of it has been taken. -/
theorem zero (h : start.acceptable = none) : start.IsBehind start 0 where
  core := by rw [skipped_zero]; rfl
  refuses := h
  shadow := nofun

private theorem pc_eq (h : cpu.IsBehind start k) :
    cpu.regs.pc = start.regs.pc + UInt16.ofNat k :=
  congrArg (·.regs.pc) h.core

private theorem halted_eq (h : cpu.IsBehind start k) :
    cpu.halted = start.halted :=
  congrArg (·.halted) h.core

/-- A held prefix byte leads one byte on. -/
theorem pastPrefix (h : cpu.IsBehind start k) :
    cpu.pastPrefix.IsBehind start (k + 1) where
  core := by
    show cpu.unshadowed.skipped 1 = _
    rw [h.core, ← skipped_skipped]
    rfl
  refuses := acceptable_of_prefixShadow rfl
  shadow _ := rfl

/-- Requests between prefix bytes are not taken there. -/
theorem raised (h : cpu.IsBehind start k) (hk : 0 < k)
    (requests : List Request) :
    (cpu.raised requests).IsBehind start k := by
  obtain ⟨lines, hlines⟩ := raised_eq_withLines cpu requests
  rw [hlines]
  exact {
    core := by
      show cpu.unshadowed.withLines lines = _
      rw [h.core]
      rfl
    refuses := acceptable_of_prefixShadow (h.shadow hk)
    shadow := h.shadow }

/-- What the core does next is what the one of the first boundary does there
when no request is pending and no shadow is left. -/
theorem step_eq_alone (h : cpu.IsBehind start k) (hawake : start.halted = false)
    (bus : Bus σ) (host : σ) :
    let lone := step bus (start.skipped k).alone host
    step bus cpu host = ((lone.1.1, lone.1.2.withLines cpu.lines), lone.2) := by
  have hstep : step bus cpu host = instruction bus cpu.unshadowed host := by
    rw [step_eq, h.refuses, h.halted_eq, hawake]
    rfl
  intro lone
  have hskipped : (start.skipped k).halted = false := hawake
  have hlone : lone = _ := (step_alone hskipped bus host).trans
    (ordinary_instruction.blind bus (start.skipped k).unshadowed host _)
  rw [hstep, h.core, ordinary_instruction.blind, hlone]
  rfl

end Cpu.IsBehind

-- ========================================================= along the chain

namespace PrefixChain

variable {bus : Bus σ} {cpu : Cpu} {host : σ} {chain : List UInt8} {op : UInt8}

/-- The step of a core at a held byte. -/
theorem step_held (hchain : PrefixChain bus host cpu.regs.pc chain op)
    (hawake : cpu.halted = false) {now : Cpu} {k : Nat}
    (hnow : now.IsBehind cpu k) (hk : k < heldBytes chain op) :
    step bus now host = ((4, now.pastPrefix), host) := by
  obtain ⟨a, b, ha, hb, hfirst, hsecond⟩ := hchain.held hk
  rw [UInt16.ofNat_add, ← UInt16.add_assoc, ← hnow.pc_eq] at hsecond
  rw [← hnow.pc_eq] at hfirst
  rw [step_eq, hnow.refuses, hnow.halted_eq, hawake]
  exact instruction_held hfirst ha hsecond hb

/-- The last step runs an instruction to its end. -/
theorem ends (hchain : PrefixChain bus host cpu.regs.pc chain op)
    (hawake : cpu.halted = false) :
    (step bus (cpu.skipped (heldBytes chain op)).alone host).1.2.prefixShadow
      = false := by
  have hskipped : (cpu.skipped (heldBytes chain op)).halted = false := hawake
  have hstep : step bus (cpu.skipped (heldBytes chain op)).alone host
      = (fetchOpcode >>= dispatch) bus
        (cpu.skipped (heldBytes chain op)).alone host :=
    Cpu.step_alone hskipped bus host
  rw [hstep]
  by_cases hed : op = 0xED
  · -- the ED page: every byte in front of it was held
    subst hed
    have hfetch : bus.fetch
        (cpu.skipped (heldBytes chain 0xED)).alone.regs.pc host
        = (0xED, host) := hchain.fetch_behind
    have hextended : Keeps Cpu.prefixShadow (dispatch 0xED : Micro σ Nat) :=
      .bind (keeps_of_control control_fetchOpcode) fun _ =>
        keeps_prefixShadow_perform _ _
    rw [fetchOpcode_bind hfetch]
    exact hextended bus _ host
  · -- the last byte of the chain and the opcode that it changes
    have hlength : 0 < chain.length := List.length_pos_iff.2 hchain.nonempty
    have hheld : heldBytes chain op = chain.length - 1 := if_neg hed
    have hin : chain.length - 1 < chain.length := by omega
    obtain ⟨a, ha, hlast⟩ := hchain.fetch_chain hin
    have hbehind := hchain.fetch_behind
    rw [show chain.length = chain.length - 1 + 1 by omega, UInt16.ofNat_add,
      ← UInt16.add_assoc] at hbehind
    rw [hheld]
    have hfetch : bus.fetch (cpu.skipped (chain.length - 1)).alone.regs.pc host
        = (a, host) :=
      hlast
    rw [fetchOpcode_bind hfetch]
    rcases ha with rfl | rfl
    · exact indexed_ends .ix hbehind hchain.behind hed
    · exact indexed_ends .iy hbehind hchain.behind hed

/-- Whatever is raised on the way, each boundary up to the last prefix is the
first one moved on, with the host as it was. -/
theorem isBehind_boundary (hchain : PrefixChain bus host cpu.regs.pc chain op)
    (hnone : cpu.acceptable = none) (hawake : cpu.halted = false)
    (requests : Nat → List Request) {k : Nat} (hk : k ≤ heldBytes chain op) :
    (boundary bus requests cpu host k).1.IsBehind cpu k
      ∧ (boundary bus requests cpu host k).2 = host := by
  induction k with
  | zero => exact ⟨.zero hnone, rfl⟩
  | succ k ih =>
      obtain ⟨hnow, hhost⟩ := ih (by omega)
      have hstep := hchain.step_held hawake hnow hk
      unfold boundary
      dsimp only
      rw [hhost, hstep]
      exact ⟨hnow.pastPrefix.raised (Nat.succ_pos k) _, rfl⟩

/-- A run takes the held bytes one by one, while its budget lasts. -/
theorem spend_held (hchain : PrefixChain bus host cpu.regs.pc chain op)
    (hawake : cpu.halted = false) {now : Cpu} {k n : Nat}
    (hnow : now.IsBehind cpu k) (hn : k + n ≤ heldBytes chain op) {left : Int}
    (hleft : n ≤ haltCycles left) :
    (Cpu.pastPrefix^[n] now).IsBehind cpu (k + n)
      ∧ (Cpu.pastPrefix^[n] now).lines = now.lines
      ∧ taken bus left now host = taken bus (left - 4 * n)
        (Cpu.pastPrefix^[n] now) host
      ∧ spend bus left now host = spend bus (left - 4 * n)
        (Cpu.pastPrefix^[n] now) host := by
  induction n generalizing now k left with
  | zero =>
      have hzero : left - 4 * (0 : Nat) = left := by omega
      rw [hzero]
      exact ⟨hnow, rfl, rfl, rfl⟩
  | succ n ih =>
      have hsome : 0 < left ∧ n ≤ haltCycles (left - 4) := by
        unfold haltCycles at hleft ⊢
        omega
      have hstep := hchain.step_held hawake hnow (by omega)
      have hcount : k + 1 + n = k + (n + 1) := by omega
      have hrest : left - 4 - 4 * (n : Int)
          = left - 4 * (n + 1 : Nat) := by omega
      obtain ⟨hend, hlines, htaken, hspend⟩ :=
        ih hnow.pastPrefix (by omega : k + 1 + n ≤ heldBytes chain op) hsome.2
      rw [hcount] at hend
      rw [hrest] at htaken hspend
      refine ⟨hend, hlines, ?_, ?_⟩
      · rw [taken_step hsome.1, hnow.refuses, hstep]
        exact htaken
      · rw [spend_step hsome.1, hstep]
        exact hspend

/-- A budget that the held bytes use up ends between two of them. -/
theorem spend_within (hchain : PrefixChain bus host cpu.regs.pc chain op)
    (hawake : cpu.halted = false) {now : Cpu} {k : Nat}
    (hnow : now.IsBehind cpu k) (hk : k ≤ heldBytes chain op) {left : Int}
    (hshort : left ≤ 4 * (heldBytes chain op - k : Nat)) :
    taken bus left now host = []
      ∧ spend bus left now host
          = ((left - 4 * haltCycles left, Cpu.pastPrefix^[haltCycles left] now),
            host) := by
  have hcount : k + haltCycles left ≤ heldBytes chain op := by
    unfold haltCycles
    omega
  have hover : left - 4 * (haltCycles left : Int) ≤ 0 := by
    unfold haltCycles
    omega
  obtain ⟨-, -, htaken, hspend⟩ :=
    hchain.spend_held hawake hnow hcount (Nat.le_refl (haltCycles left))
  rw [taken_done hover] at htaken
  rw [spend_done hover] at hspend
  exact ⟨htaken, hspend⟩

/-- A longer one comes to the last step, and goes on behind it. -/
theorem spend_beyond (hchain : PrefixChain bus host cpu.regs.pc chain op)
    (hawake : cpu.halted = false) {now : Cpu} {k : Nat}
    (hnow : now.IsBehind cpu k) (hk : k ≤ heldBytes chain op) {left : Int}
    (hlong : 4 * (heldBytes chain op - k : Nat) < left) :
    let lone := step bus (cpu.skipped (heldBytes chain op)).alone host
    let rest := left - 4 * (heldBytes chain op - k : Nat) - lone.1.1
    let after := lone.1.2.withLines now.lines
    taken bus left now host = taken bus rest after lone.2
      ∧ spend bus left now host = spend bus rest after lone.2 := by
  have hcount : k + (heldBytes chain op - k) ≤ heldBytes chain op := by omega
  have hcycles : heldBytes chain op - k ≤ haltCycles left := by
    unfold haltCycles
    omega
  have hsome : 0 < left - 4 * ((heldBytes chain op - k : Nat) : Int) := by omega
  obtain ⟨hend, hlines, htaken, hspend⟩ :=
    hchain.spend_held hawake hnow hcount hcycles
  have hlast := hend.step_eq_alone hawake bus host
  rw [hlines, Nat.add_sub_of_le hk] at hlast
  rw [taken_step hsome, hend.refuses, hlast] at htaken
  rw [spend_step hsome, hlast] at hspend
  exact ⟨htaken, hspend⟩

end PrefixChain

-- ============================================================= the theorem

/-- A chain of prefix bytes is atomic, and its last byte wins. Let a core that
is not halted be at the first byte and take no interrupt there, and let any
requests be raised at the boundaries behind it. Then none is taken before
the instruction behind the chain has run. Each held byte takes four T-states
and does what `pastPrefix` says: PC and R move on by one, the EI shadow is
cleared and the prefix shadow set, and the host is as it was. The last step is
the one that the core takes alone at the last prefix byte, or at ED; it is not
held, and leaves the lines as they were raised. A run that starts at a
boundary of the chain takes the same steps: it ends between two bytes with
nothing taken, or goes on behind the last step. -/
theorem prefix_chain_atomic {bus : Bus σ} {cpu : Cpu} {host : σ}
    {chain : List UInt8} {op : UInt8}
    (hchain : PrefixChain bus host cpu.regs.pc chain op)
    (hnone : cpu.acceptable = none) (hawake : cpu.halted = false)
    (requests : Nat → List Request) :
    let held := heldBytes chain op
    let core := fun k => (boundary bus requests cpu host k).1
    let lone := step bus (cpu.skipped held).alone host
    (∀ k ≤ held, (core k).acceptable = none
      ∧ (boundary bus requests cpu host k).2 = host)
    ∧ (∀ k < held, step bus (core k) host = ((4, (core k).pastPrefix), host))
    ∧ step bus (core held) host
      = ((lone.1.1, lone.1.2.withLines (core held).lines), lone.2)
    ∧ lone.1.2.prefixShadow = false
    ∧ ∀ k ≤ held, ∀ (cycles : Int) (clock : Clock), (core k).faulted = false →
      let budget := cycles + clock.carry
      let run := exec bus cycles ⟨core k, clock⟩ host
      (budget ≤ 4 * (held - k : Nat) →
        taken bus budget (core k) host = []
          ∧ run.1.2.clock.left = budget - 4 * haltCycles budget
          ∧ run.1.2.cpu = Cpu.pastPrefix^[haltCycles budget] (core k)
          ∧ run.2 = host)
      ∧ (4 * (held - k : Nat) < budget →
        let rest := budget - 4 * (held - k : Nat) - lone.1.1
        let after := lone.1.2.withLines (core k).lines
        taken bus budget (core k) host = taken bus rest after lone.2
          ∧ ((run.1.2.clock.left, run.1.2.cpu), run.2)
            = spend bus rest after lone.2) := by
  intro held core lone
  -- where the core is at boundary `k` carries all of it: behind `k` prefixes,
  -- on the host it began with
  have hbehind : ∀ k ≤ held, (core k).IsBehind cpu k
      ∧ (boundary bus requests cpu host k).2 = host :=
    fun k hk => hchain.isBehind_boundary hnone hawake requests hk
  refine ⟨fun k hk => ⟨(hbehind k hk).1.refuses, (hbehind k hk).2⟩,
    fun k hk => hchain.step_held hawake (hbehind k (Nat.le_of_lt hk)).1 hk,
    (hbehind held (Nat.le_refl _)).1.step_eq_alone hawake bus host,
    hchain.ends hawake, ?_⟩
  intro k hk cycles clock hrun budget run
  obtain ⟨hnow, -⟩ := hbehind k hk
  have hexec : run = _ := exec_running bus cycles hrun host
  refine ⟨fun hshort => ?_, fun hlong => ?_⟩
  · -- the budget ends inside the chain
    obtain ⟨htaken, hspend⟩ := hchain.spend_within hawake hnow hk hshort
    dsimp only at hexec
    rw [show cycles + clock.carry = budget from rfl, hspend] at hexec
    rw [hexec]
    exact ⟨htaken, rfl, rfl, rfl⟩
  · -- the budget goes past the last byte
    intro rest after
    obtain ⟨htaken, hspend⟩ := hchain.spend_beyond hawake hnow hk hlong
    refine ⟨htaken, ?_⟩
    rw [hexec]
    exact hspend

/-- `LD IY,1234h` with a DD in front of it. -/
def chainedLoad : FlatMemory where
  bytes := #[0xDD, 0xFD, 0x21, 0x34, 0x12]

/-- Both lines are raised behind the DD. The load runs all the same, into IY,
and the requests are still pending behind it. -/
theorem prefix_chain_atomic_load :
    let bus : Bus FlatMemory :=
      .ofParts (FlatMemory.bus id fun change ram => change ram) .unconnected
        .unconnected
    let requests := fun k => if k = 1 then [Request.irq 0xFF, .nmi] else []
    let between := (boundary bus requests .powerOn chainedLoad 1).1
    PrefixChain bus chainedLoad Cpu.powerOn.regs.pc [0xDD, 0xFD] 0x21
      ∧ Cpu.powerOn.acceptable = none ∧ Cpu.powerOn.halted = false
      ∧ between.nmiPending = true ∧ between.irqPending = true
      ∧ between.acceptable = none
      ∧ (step bus between chainedLoad).1.2.regs.iy = ⟨0x12, 0x34⟩
      ∧ (step bus between chainedLoad).1.2.lines = between.lines := by
  intro bus requests between
  have hchain : PrefixChain bus chainedLoad Cpu.powerOn.regs.pc [0xDD,
      0xFD] 0x21 :=
    { nonempty := nofun
      prefixes := by simp [IsPrefix]
      behind := by decide
      reads := by
        intro i b hb
        match i with
        | 0 | 1 | 2 => cases hb; rfl
        | _ + 3 => cases hb }
  obtain ⟨hrefuses, -, hlast, -, -⟩ :=
    prefix_chain_atomic hchain rfl rfl requests
  have hheld : heldBytes [0xDD, 0xFD] 0x21 = 1 := by decide
  have hbetween : between.acceptable = none := (hrefuses 1 (by decide)).1
  rw [hheld] at hlast
  have hload : step bus between chainedLoad = _ := hlast
  refine ⟨hchain, rfl, rfl, rfl, rfl, hbetween, ?_, ?_⟩
  · rw [hload]
    rfl
  · rw [hload]
    rfl

end ConsoleBoard.Z80
