/-
Sessions: a host that runs a processor, steps it, steals time from it and
sets its lines and registers, call after call in any order.

The processor keeps four counters (`Clock`), of which a run writes all, a
single step one and stolen time another. Beside it the host keeps its own
books: what it granted, what single steps told it they took, and what it
stole. The invariant (`Session.Balanced`) says that the two agree: total and
carry together are what was granted and stepped, less what was stolen.
Each call keeps it, so every session does.

The books are kept in exact integers. A run that is refused gives its whole
budget back, so it is granted nothing, and time that is stolen may be given back
as well.
-/
import ConsoleBoard.Proofs.Z80.Exec

namespace ConsoleBoard.Z80

variable {σ : Type}

-- =============================================================== the calls

/-- What a host may do to a core that is not running. -/
inductive CoreCall
  | requestIrq (vector : UInt8)
  | clearIrq
  | requestNmi
  | clearNmi
  | setFaulted (on : Bool)
  | softReset
  | setByte (name : ByteName) (v : UInt8)
  | setWord (name : WordName) (w : UInt16)
  | setRefresh (v : UInt8)
  | setMode (number : UInt8)
  | setFlipFlops (iff1 iff2 : Bool)
deriving DecidableEq

def CoreCall.apply : CoreCall → Cpu → Cpu
  | requestIrq vector, cpu => cpu.requestIrq vector
  | clearIrq, cpu => { cpu with irqPending := false }
  | requestNmi, cpu => { cpu with nmiPending := true }
  | clearNmi, cpu => { cpu with nmiPending := false }
  | setFaulted on, cpu => { cpu with faulted := on }
  | softReset, cpu => cpu.softReset
  | setByte name v, cpu => { cpu with regs := cpu.regs.setByte v name }
  | setWord name w, cpu => { cpu with regs := cpu.regs.setWord w name }
  | setRefresh v, cpu => { cpu with regs := { cpu.regs with r := v } }
  | setMode number, cpu => { cpu with im := .ofNumber number.toNat }
  | setFlipFlops iff1 iff2, cpu => { cpu with iff1, iff2 }

/-- One call of a host. -/
inductive HostCall
  | exec (cycles : Int)
  | step
  | addCycles (n : Int)
  | core (call : CoreCall)
deriving DecidableEq

-- ============================================================ the sessions

/-- A processor with its host, and the host's books. -/
structure Session (σ : Type) where
  z : Z80
  host : σ
  /-- Budgets of the runs that were not refused. -/
  granted : Int
  /-- T-states that single steps have returned. -/
  stepped : Nat
  /-- T-states charged from outside. -/
  stolen : Int

namespace Session

/-- A processor just reset, and empty books. -/
def start (z : Z80) (host : σ) : Session σ where
  z := z.reset
  host := host
  granted := 0
  stepped := 0
  stolen := 0

/-- Make a call and enter it in the books. A faulted core refuses a run, so
its budget does not count. -/
def call (bus : Bus σ) (s : Session σ) : HostCall → Session σ
  | .exec cycles =>
      let run := exec bus cycles s.z s.host
      { s with
        z := run.1.2
        host := run.2
        granted := if s.z.cpu.faulted then s.granted else s.granted + cycles }
  | .step =>
      let run := stepOnce bus s.z s.host
      { s with z := run.1.2, host := run.2, stepped := s.stepped + run.1.1 }
  | .addCycles n => { s with z := s.z.addCycles n, stolen := s.stolen + n }
  | .core call => { s with z := s.z.onCpu call.apply }

/-- Make calls one after the other. -/
def calls (bus : Bus σ) (s : Session σ) (list : List HostCall) : Session σ :=
  list.foldl (call bus) s

-- =========================================================== the invariant

/-- The processor's counters and the host's books agree. -/
def Balanced (s : Session σ) : Prop :=
  (s.z.clock.total : Int) + s.z.clock.carry = s.granted + s.stepped - s.stolen

/-- A run moves its budget into the total and the carry: what it used is
counted, and what it overshot is carried. -/
theorem balanced_exec (bus : Bus σ) (cycles : Int) {s : Session σ}
    (h : s.Balanced) : (s.call bus (.exec cycles)).Balanced := by
  unfold Balanced call at *
  dsimp only
  cases hf : s.z.cpu.faulted with
  | true =>
      rw [exec_faulted bus cycles hf, if_pos rfl]
      exact h
  | false =>
      have hle := spend_le bus (cycles + s.z.clock.carry) s.z.cpu s.host
      rw [exec_running bus cycles hf, if_neg Bool.false_ne_true]
      dsimp only
      omega

/-- Each call keeps the books balanced. -/
theorem balanced_call (bus : Bus σ) (c : HostCall) {s : Session σ}
    (h : s.Balanced) : (s.call bus c).Balanced := by
  cases c with
  | exec cycles => exact balanced_exec bus cycles h
  | step =>
      unfold Balanced call at *
      rw [stepOnce_eq]
      dsimp only [Clock.charge]
      omega
  | addCycles n =>
      unfold Balanced call addCycles at *
      dsimp only
      omega
  | core c => exact h

/-- At the start the books agree. -/
private theorem balanced_start (z : Z80) (host : σ) :
    (start z host).Balanced := rfl

/-- So does every sequence of calls. -/
theorem balanced_calls (bus : Bus σ) (list : List HostCall) {s : Session σ}
    (h : s.Balanced) : (s.calls bus list).Balanced := by
  induction list generalizing s with
  | nil => exact h
  | cons c rest ih => exact ih (balanced_call bus c h)

/-- No T-state is lost and none is charged twice: from a reset on, whatever
the calls and their order, the total and the carry are together the budgets
of the runs that were not refused and the T-states of the single steps,
less the time stolen. -/
theorem total_add_carry (bus : Bus σ) (z : Z80) (host : σ)
    (list : List HostCall) :
    let s := (start z host).calls bus list
    (s.z.clock.total : Int) + s.z.clock.carry
      = s.granted + s.stepped - s.stolen :=
  balanced_calls bus list (balanced_start z host)

end Session

end ConsoleBoard.Z80
