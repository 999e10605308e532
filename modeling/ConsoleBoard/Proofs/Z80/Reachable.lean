/-
The processors that a host can reach from a reset.

A host runs and steps its processor, steals time, sets lines and registers
(`HostCall`), resets, and restores snapshots. `Operation.perform` is one of
these with what it returns. Every call may find other handlers on the bus
and the host in any state, so reachability (`Reachable`) speaks of the
processor alone. The results about it differ in the operations that they
admit: whether time may be given back, and whether snapshots may come from
anywhere or only from processors that were themselves reached; `Allowed`
says it.

What every boundary of a run and every setter keeps, every call keeps
(`KeptByTurns.call`). The induction over the ways to reach a processor is
done once (`Reachable.keeps`): an invariant of cores has to say in addition
what it knows of a core that comes out of a snapshot.
-/
import ConsoleBoard.Proofs.Z80.Interrupt
import ConsoleBoard.Proofs.Z80.Session
import ConsoleBoard.Z80.Snapshot

namespace ConsoleBoard.Z80

variable {σ : Type}

-- ============================================================== operations

/-- One operation of a host on its processor. -/
inductive Operation
  | call (c : HostCall)
  | reset
  | restore (s : Snapshot)
deriving DecidableEq

/-- Perform an operation. The result is the number that it returns, if it
returns one. -/
def Operation.perform (bus : Bus σ) :
    Operation → StateT Z80 (StateM σ) (Option Int)
  | .call (.exec cycles) => return some (← exec bus cycles)
  | .call .step => return some (← stepOnce bus)
  | .call (.addCycles n) => do modify (·.addCycles n); return none
  | .call (.core c) => do modify (·.onCpu c.apply); return none
  | .reset => do modify (·.reset); return none
  | .restore s => do modify (·.restore s); return none

/-- Perform operations one after the other. -/
def performAll (bus : Bus σ) :
    List Operation → StateT Z80 (StateM σ) (List (Option Int))
  | [] => return []
  | op :: rest => do
      let result ← op.perform bus
      let results ← performAll bus rest
      return result :: results

/-- A list of operations is the first one and the others. -/
theorem performAll_cons (bus : Bus σ) (op : Operation)
    (rest : List Operation) (z : Z80) (host : σ) :
    performAll bus (op :: rest) z host =
      let first := op.perform bus z host
      let later := performAll bus rest first.1.2 first.2
      ((first.1.1 :: later.1.1, later.1.2), later.2) := rfl

/-- The operation does not restore a snapshot. -/
def Operation.IsOwn : Operation → Prop
  | .restore _ => False
  | _ => True

/-- The operation does not give time back. -/
def Operation.IsCharge : Operation → Prop
  | .call (.addCycles n) => 0 ≤ n
  | _ => True

-- ============================================================ reachability

/-- The processors that allowed operations lead to from a reset, whatever
they are wired to at each of them. The snapshot of a processor so reached
may be restored into any other. -/
inductive Reachable (Allowed : Operation → Prop) : Z80 → Prop
  | start : Reachable Allowed {}
  | after {z : Z80} (h : Reachable Allowed z) {op : Operation}
      (hop : Allowed op)
      {σ : Type} (bus : Bus σ) (host : σ) : Reachable Allowed
        (op.perform bus z host).1.2
  | reload {z z' : Z80} (h : Reachable Allowed z) (h' : Reachable Allowed z') :
      Reachable Allowed (z.restore z'.snapshot)

-- ================================================= what is kept on the way

/-- A property of cores that no boundary ends. -/
def KeptByTurns (P : Cpu → Prop) : Prop :=
  ∀ {σ : Type} {bus : Bus σ} {cpu : Cpu} {host : σ} {request : Option Interrupt}
    {used : Nat} {after : Cpu} {host' : σ},
    Turn bus cpu host request used after host' → P cpu → P after

/-- What every turn keeps, a run keeps. -/
theorem KeptByTurns.spend {P : Cpu → Prop} (hP : KeptByTurns P) (bus : Bus σ)
    (left : Int) (cpu : Cpu) (host : σ) (h : P cpu) :
    P (spend bus left cpu host).1.2 := by
  induction left, cpu, host using run_induction bus with
  | done left cpu host hdone =>
      rw [spend_done hdone]
      exact h
  | next left cpu host hsome ih =>
      rw [spend_step hsome]
      exact ih (hP (turn_step bus cpu host) h)

/-- What boundaries and setters keep, every call keeps. -/
theorem KeptByTurns.call {P : Cpu → Prop} (hP : KeptByTurns P)
    (hset : ∀ (c : CoreCall) {cpu : Cpu}, P cpu → P (c.apply cpu))
    (c : HostCall) (bus : Bus σ) {z : Z80} (host : σ) (h : P z.cpu) :
    P ((Operation.call c).perform bus z host).1.2.cpu := by
  cases c with
  | exec cycles =>
      show P (exec bus cycles z host).1.2.cpu
      cases hf : z.cpu.faulted with
      | true =>
          rw [exec_faulted bus cycles hf]
          exact h
      | false =>
          rw [exec_running bus cycles hf]
          exact hP.spend bus _ z.cpu host h
  | step => exact hP (turn_step bus z.cpu host) h
  | addCycles n => exact h
  | core c => exact hset c h

/-- An invariant of cores holds in every processor that is reached, if nothing
on the way ends it and snapshots bring no core without it. -/
theorem Reachable.keeps {Allowed : Operation → Prop} {P : Cpu → Prop}
    (hstart : P .powerOn) (hturns : KeptByTurns P)
    (hset : ∀ (c : CoreCall) {cpu : Cpu}, P cpu → P (c.apply cpu))
    (hrestore : ∀ s, Allowed (.restore s) → P s.cpu)
    (hreload : ∀ {z : Z80}, Reachable Allowed z → P z.cpu → P z.snapshot.cpu)
    {z : Z80} (hz : Reachable Allowed z) : P z.cpu := by
  induction hz with
  | start => exact hstart
  | @after z h op hop σ bus host ih =>
      cases op with
      | call c => exact hturns.call hset c bus host ih
      | reset => exact hstart
      | restore s => exact hrestore s hop
  | reload h h' _ ih' => exact hreload h' ih'

end ConsoleBoard.Z80
