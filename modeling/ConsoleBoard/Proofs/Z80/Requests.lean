/-
Requests, and the interrupts that they lead to.

# Conservation

A boundary takes a request or leaves it pending, and raises none: what is
taken and what is pending behind it are together what was pending before
it (`Turn.conserves`). A run adds this up over its boundaries
(`spend_conserves`).

# Acknowledge cycles

A maskable interrupt that is taken runs one acknowledge cycle, with the
latched vector, and nothing else runs any (`step_watched`). So on the
watched bus the list beside the host is as long as the list of maskable
interrupts taken.

# Sessions

Around the processor anything may happen: calls in any order, hard resets,
other handlers on the bus, a host that works on its own state. Only a call
that raises a line adds to what is pending, so the invariant of a session
(`Watch.Covered`) is that what has been taken and what is pending are
covered by the calls that raised it.
-/
import ConsoleBoard.Proofs.Z80.Interrupt
import ConsoleBoard.Proofs.Z80.Session

namespace ConsoleBoard.Z80

variable {σ : Type}

-- ============================================================ conservation

/-- A request has been raised and not been taken or dropped. -/
def Cpu.pending (cpu : Cpu) : Interrupt → Bool
  | .nmi => cpu.nmiPending
  | .irq => cpu.irqPending

/-- What is pending is read off the lines. -/
private theorem pending_eq_of_lines {cpu cpu' : Cpu}
    (h : cpu'.lines = cpu.lines) (r : Interrupt) :
    cpu'.pending r = cpu.pending r := by
  cases r with
  | nmi => exact congrArg Lines.nmiPending h
  | irq => exact congrArg Lines.irqPending h

/-- What a turn takes is no longer pending, and nothing else has changed. -/
theorem Turn.conserves {bus : Bus σ} {cpu : Cpu} {host : σ}
    {request : Option Interrupt} {used : Nat} {after : Cpu} {host' : σ}
    (h : Turn bus cpu host request used after host') (r : Interrupt) :
    request.toList.count r + (after.pending r).toNat
      = (cpu.pending r).toNat := by
  cases h with
  | nmi htakes => cases r <;> simp [Cpu.pending, Cpu.enter, htakes.2]
  | restart htakes => cases r <;> simp [Cpu.pending, Cpu.enter, htakes.2.2.1]
  | vectored htakes => cases r <;> simp [Cpu.pending, Cpu.enter, htakes.2.2.1]
  | rest => exact Nat.zero_add _
  | run _ _ _ hlines => rw [pending_eq_of_lines hlines]; exact Nat.zero_add _

/-- No turn changes the vector. -/
theorem Turn.vector_eq {bus : Bus σ} {cpu : Cpu} {host : σ}
    {request : Option Interrupt} {used : Nat} {after : Cpu} {host' : σ}
    (h : Turn bus cpu host request used after host') :
    after.vector = cpu.vector := by
  cases h with
  | run _ _ _ hlines => exact congrArg Lines.vector hlines
  | nmi | restart | vectored | rest => rfl

/-- Over a run, what is taken and what is pending behind it are together
what was pending before it. -/
theorem spend_conserves (bus : Bus σ) (left : Int) (cpu : Cpu) (host : σ)
    (r : Interrupt) :
    (taken bus left cpu host).count r
      + ((spend bus left cpu host).1.2.pending r).toNat
      = (cpu.pending r).toNat := by
  induction left, cpu, host using run_induction bus with
  | done left cpu host h =>
      rw [taken_done h, spend_done h]
      exact Nat.zero_add _
  | next left cpu host h ih =>
      have hturn := (turn_step bus cpu host).conserves r
      rw [taken_step h, spend_step h, List.count_append]
      omega

-- ====================================================== acknowledge cycles

/-- The vectors that the core gives to the acknowledge cycles of the
interrupts taken. -/
def Cpu.acknowledged (cpu : Cpu) (taken : List Interrupt) : List UInt8 :=
  List.replicate (taken.count .irq) cpu.vector

/-- The acknowledge cycles of two lists, one after the other. -/
private theorem acknowledged_append (cpu : Cpu) (first later : List Interrupt) :
    cpu.acknowledged (first ++ later)
      = cpu.acknowledged first ++ cpu.acknowledged later := by
  unfold Cpu.acknowledged
  rw [List.count_append, List.replicate_append_replicate]

/-- Accepting an interrupt runs one acknowledge cycle, with the vector of the
core. -/
private theorem acceptIrq_watched (bus : Bus σ) (cpu : Cpu) (host : σ)
    (log : List UInt8) :
    acceptIrq bus.watched cpu (host, log)
      = ((acceptIrq bus cpu host).1, (acceptIrq bus cpu host).2,
        log ++ [cpu.vector]) := by
  obtain ⟨regs, iff1, iff2, im, vector, irq, nmi, halted, faulted, spare, ei,
    pre⟩ := cpu
  cases im <;> rfl

/-- A step on the watched bus is the step on the bus, and adds the latched
vector to the list if it takes the maskable interrupt. -/
theorem step_watched (bus : Bus σ) (cpu : Cpu) (host : σ) (log : List UInt8) :
    step bus.watched cpu (host, log)
      = ((step bus cpu host).1, (step bus cpu host).2,
          log ++ cpu.acknowledged cpu.acceptable.toList) := by
  rw [step_eq, step_eq]
  cases cpu.acceptable with
  | some request =>
      cases request with
      | nmi =>
          have hnone : cpu.acknowledged (some Interrupt.nmi).toList = [] := rfl
          rw [hnone, List.append_nil]
          rfl
      | irq => exact acceptIrq_watched bus cpu host log
  | none =>
      have hnone : cpu.acknowledged (none : Option Interrupt).toList = [] := rfl
      rw [hnone, List.append_nil]
      cases cpu.halted with
      | true => rfl
      | false => exact ordinary_instruction.watched bus cpu host log

/-- A run acknowledges what it takes, and nothing else. -/
private theorem spend_watched (bus : Bus σ) (left : Int) (cpu : Cpu) (host : σ)
    (log : List UInt8) :
    spend bus.watched left cpu (host, log)
      = ((spend bus left cpu host).1, (spend bus left cpu host).2,
          log ++ cpu.acknowledged (taken bus left cpu host)) := by
  induction left, cpu, host using run_induction bus generalizing log with
  | done left cpu host h =>
      rw [taken_done h, spend_done h, spend_done h]
      exact congrArg (Prod.mk _ <| Prod.mk _ ·) (List.append_nil log).symm
  | next left cpu host h ih =>
      -- no step changes the latch, so the later ones give the same vector
      have hvector : ∀ later, (step bus cpu host).1.2.acknowledged later
          = cpu.acknowledged later := fun later => by
        unfold Cpu.acknowledged
        rw [(turn_step bus cpu host).vector_eq]
      rw [spend_step h, step_watched, spend_step h, taken_step h,
        acknowledged_append, ← List.append_assoc, ← hvector (taken _ _ _ _)]
      exact ih _

/-- A run with a budget acknowledges what it takes, and nothing else. -/
private theorem exec_watched (bus : Bus σ) (cycles : Int) {z : Z80}
    (h : z.cpu.faulted = false) (host : σ) (log : List UInt8) :
    exec bus.watched cycles z (host, log)
      = ((exec bus cycles z host).1, (exec bus cycles z host).2,
          log ++ z.cpu.acknowledged
            (taken bus (cycles + z.clock.carry) z.cpu host)) := by
  rw [exec_running bus.watched cycles h, exec_running bus cycles h]
  dsimp only
  rw [spend_watched]

private theorem stepOnce_watched (bus : Bus σ) (z : Z80) (host : σ)
    (log : List UInt8) :
    stepOnce bus.watched z (host, log)
      = ((stepOnce bus z host).1, (stepOnce bus z host).2,
          log ++ z.cpu.acknowledged z.cpu.acceptable.toList) := by
  rw [stepOnce_eq, stepOnce_eq, step_watched]

-- ================================================================ sessions

/-- The call raises the line of a request. -/
def HostCall.raises : HostCall → Interrupt → Bool
  | core (.requestIrq _), .irq => true
  | core .requestNmi, .nmi => true
  | _, _ => false

/-- Something that happens around a processor. -/
inductive Event (σ : Type)
  | call (c : HostCall)
  | reset
  /-- Install handlers or fetch windows. -/
  | rewire (bus : Bus σ)
  /-- The host works on its own state. -/
  | outside (change : σ → σ)

def Event.raises : Event σ → Interrupt → Bool
  | call c, r => c.raises r
  | _, _ => false

/-- A session on a watched bus, with the interrupts taken in it. -/
structure Watch (σ : Type) where
  bus : Bus σ
  session : Session (σ × List UInt8)
  taken : List Interrupt

namespace Watch

def start (bus : Bus σ) (z : Z80) (host : σ) : Watch σ where
  bus := bus
  session := .start z (host, [])
  taken := []

/-- The interrupts that a call takes: a faulted core runs nothing, and only
runs and single steps have boundaries. -/
def takes (w : Watch σ) : HostCall → List Interrupt
  | .exec cycles =>
      if w.session.z.cpu.faulted then []
      else Z80.taken w.bus (cycles + w.session.z.clock.carry) w.session.z.cpu
        w.session.host.1
  | .step => w.session.z.cpu.acceptable.toList
  | .addCycles _ | .core _ => []

def after (w : Watch σ) : Event σ → Watch σ
  | .call c =>
      { w with session := w.session.call w.bus.watched c,
               taken := w.taken ++ w.takes c }
  | .reset => { w with session := { w.session with z := w.session.z.reset } }
  | .rewire bus => { w with bus := bus }
  | .outside change =>
      { w with session := { w.session with
          host := (change w.session.host.1, w.session.host.2) } }

def run (w : Watch σ) (events : List (Event σ)) : Watch σ :=
  events.foldl after w

def acknowledged (w : Watch σ) : List UInt8 := w.session.host.2

/-- Every maskable interrupt taken was acknowledged once, and what has been
taken or is pending was raised. -/
structure Covered (w : Watch σ) (raised : Interrupt → Nat) : Prop where
  once : w.acknowledged.length = w.taken.count .irq
  raised : ∀ r, w.taken.count r + (w.session.z.cpu.pending r).toNat ≤ raised r

-- ----------------------------------------------------------- one event

/-- A call on the watched bus adds to the list what it takes. -/
theorem call_acknowledged (w : Watch σ) (c : HostCall) :
    (w.session.call w.bus.watched c).host.2
      = w.acknowledged ++ w.session.z.cpu.acknowledged (w.takes c) := by
  obtain ⟨bus, ⟨z, ⟨host, log⟩, granted, stepped, stolen⟩, taken⟩ := w
  cases c with
  | exec cycles =>
      unfold takes Session.call acknowledged
      dsimp only
      cases hf : z.cpu.faulted with
      | true =>
          rw [exec_faulted bus.watched cycles hf]
          exact (List.append_nil log).symm
      | false => rw [exec_watched bus cycles hf]; rfl
  | step =>
      exact congrArg (·.2.2) (stepOnce_watched bus z host log)
  | addCycles n | core c => exact (List.append_nil log).symm

/-- Only raising a line makes a request pending that was not. -/
theorem pending_apply_le (c : CoreCall) (cpu : Cpu) (r : Interrupt) :
    ((c.apply cpu).pending r).toNat
      ≤ (cpu.pending r).toNat + ((HostCall.core c).raises r).toNat := by
  cases c <;> cases r
  case requestIrq.irq | requestNmi.nmi => exact Nat.le_add_left 1 _
  case clearIrq.irq | clearNmi.nmi | softReset.irq | softReset.nmi =>
    exact Nat.zero_le _
  all_goals exact Nat.le_refl _

/-- What a call takes and what is pending behind it was pending before it, or
is raised by it. -/
theorem takes_conserves (w : Watch σ) (c : HostCall) (r : Interrupt) :
    (w.takes c).count r
      + ((w.session.call w.bus.watched c).z.cpu.pending r).toNat
      ≤ (w.session.z.cpu.pending r).toNat + (c.raises r).toNat := by
  obtain ⟨bus, ⟨z, ⟨host, log⟩, granted, stepped, stolen⟩, taken⟩ := w
  -- only `exec` and `step` take requests, and only core calls raise them
  cases c with
  | exec cycles =>
      unfold takes Session.call
      dsimp only
      cases hf : z.cpu.faulted with
      | true =>
          rw [exec_faulted bus.watched cycles hf, if_pos rfl]
          exact Nat.le_of_eq (Nat.zero_add _)
      | false =>
          have hrun := spend_conserves bus (cycles + z.clock.carry) z.cpu host r
          rw [exec_watched bus cycles hf, exec_running bus cycles hf,
            if_neg nofun]
          exact Nat.le_of_eq hrun
  | step =>
      have hturn := (turn_step bus z.cpu host).conserves r
      unfold takes Session.call
      dsimp only
      rw [stepOnce_watched, stepOnce_eq]
      exact Nat.le_of_eq hturn
  | addCycles n => exact Nat.le_of_eq (Nat.zero_add _)
  | core c =>
      exact Nat.le_trans (Nat.le_of_eq (Nat.zero_add _))
        (pending_apply_le c z.cpu r)

-- ------------------------------------------------------- the invariant

/-- At the start nothing has been raised or taken. -/
theorem covered_start (bus : Bus σ) (z : Z80) (host : σ) :
    Covered (start bus z host) fun _ => 0 where
  once := rfl
  raised r := by cases r <;> exact Nat.le_refl 0

/-- What is taken stays covered by what was raised. -/
private theorem covered_after {w : Watch σ} {raised : Interrupt → Nat}
    (h : w.Covered raised) (event : Event σ) :
    (w.after event).Covered fun r => raised r + (event.raises r).toNat := by
  cases event with
  | call c =>
      refine ⟨?_, fun r => ?_⟩
      · have hlog := congrArg List.length (call_acknowledged w c)
        have honce := h.once
        unfold Cpu.acknowledged at hlog
        rw [List.length_append, List.length_replicate] at hlog
        show (w.session.call w.bus.watched c).host.2.length
          = (w.taken ++ w.takes c).count .irq
        rw [List.count_append, hlog, honce]
      · have hcall := takes_conserves w c r
        have hraised := h.raised r
        show (w.taken ++ w.takes c).count r
          + ((w.session.call w.bus.watched c).z.cpu.pending r).toNat
            ≤ raised r + (c.raises r).toNat
        rw [List.count_append]
        omega
  | reset =>
      refine ⟨h.once, fun r => ?_⟩
      -- a reset drops what is pending
      have hdropped : ((w.after .reset).session.z.cpu.pending r).toNat = 0 := by
        cases r <;> rfl
      have hraised := h.raised r
      rw [hdropped]
      exact Nat.le_trans (Nat.le_add_right _ _) hraised
  | rewire bus => exact ⟨h.once, h.raised⟩
  | outside change => exact ⟨h.once, h.raised⟩

/-- Along a session, what is taken is covered by what was raised. -/
theorem covered_run {w : Watch σ} {raised : Interrupt → Nat}
    (h : w.Covered raised) (events : List (Event σ)) :
    (w.run events).Covered fun r => raised r + events.countP (·.raises r) := by
  induction events generalizing w raised with
  | nil => exact h
  | cons event rest ih =>
      have hrest := ih (covered_after h event)
      refine ⟨hrest.once, fun r => ?_⟩
      have hcount : (event :: rest).countP (·.raises r)
          = rest.countP (·.raises r) + (event.raises r).toNat := by
        rw [List.countP_cons]
        cases event.raises r <;> rfl
      rw [hcount, Nat.add_comm (rest.countP _), ← Nat.add_assoc]
      exact hrest.raised r

end Watch

-- ================================================================= the law

/-- Interrupts are taken by one law. A single step is the turn of its
boundary and a run is turns one after another, so whatever the bus, an
interrupt is taken as `Turn` says: not between prefix bytes, the
non-maskable one first, the maskable one when IFF1 is set and the
instruction before was not EI. Each maskable one taken is acknowledged once
with the latched vector. So over every session from a reset on, no
more acknowledge cycles run and no more non-maskable handlers are entered
than the host has raised requests. -/
theorem interrupt_law (bus : Bus σ) :
    (∀ (z : Z80) (host : σ) (log : List UInt8),
      let one := stepOnce bus z host
      (∀ request used after host',
        Turn bus z.cpu host request used after host' ↔
          z.cpu.acceptable = request
            ∧ ((one.1.1, one.1.2.cpu), one.2) = ((used, after), host'))
      ∧ stepOnce bus.watched z (host, log)
          = (one.1, one.2, log ++ z.cpu.acknowledged z.cpu.acceptable.toList))
    ∧ (∀ (cycles : Int) (z : Z80) (host : σ) (log : List UInt8),
      z.cpu.faulted = false →
      let budget := cycles + z.clock.carry
      let run := exec bus cycles z host
      Turns bus budget z.cpu host (taken bus budget z.cpu host)
        run.1.2.clock.left run.1.2.cpu run.2
      ∧ exec bus.watched cycles z (host, log)
          = (run.1, run.2, log ++ z.cpu.acknowledged
            (taken bus budget z.cpu host)))
    ∧ ∀ (z : Z80) (host : σ) (events : List (Event σ)),
      let w := (Watch.start bus z host).run events
      w.acknowledged.length = w.taken.count .irq
        ∧ w.acknowledged.length ≤ events.countP (·.raises .irq)
        ∧ w.taken.count .nmi ≤ events.countP (·.raises .nmi) := by
  refine ⟨fun z host log => ⟨?_, ?_⟩, fun cycles z host log hrun => ⟨?_, ?_⟩,
    fun z host events => ?_⟩
  · intro request used after host'
    exact turn_iff
  · exact stepOnce_watched bus z host log
  · have hturns := turns_spend bus (cycles + z.clock.carry) z.cpu host
    rw [exec_running bus cycles hrun]
    exact hturns
  · exact exec_watched bus cycles hrun host log
  · have hcovered := Watch.covered_run (Watch.covered_start bus z host) events
    have hirq := hcovered.raised .irq
    have hnmi := hcovered.raised .nmi
    -- one entry in the recorder for each maskable request taken
    have honce := hcovered.once
    dsimp only at hirq hnmi ⊢
    omega

/-- A core in mode two that waits for its handler on an open bus. -/
def vectoredWaiting : Z80 where
  cpu := { Cpu.powerOn with
    iff1 := true, im := .two, vector := 0xE0, irqPending := true }

/-- It is acknowledged once, with its vector. -/
theorem interrupt_law_vectored :
    vectoredWaiting.cpu.faulted = false
      ∧ (exec Bus.unconnected.watched 19 vectoredWaiting ((), [])).2.2
        = [0xE0] := by
  obtain ⟨-, hruns, -⟩ := interrupt_law (Bus.unconnected : Bus Unit)
  obtain ⟨-, hwatched⟩ := hruns 19 vectoredWaiting () [] rfl
  have htaken : taken Bus.unconnected 19 vectoredWaiting.cpu () = [.irq] := by
    rw [taken_step (by decide), taken_done (by decide)]
    rfl
  refine ⟨rfl, ?_⟩
  rw [hwatched]
  show Cpu.acknowledged _ (taken Bus.unconnected 19 vectoredWaiting.cpu ()) = _
  rw [htaken]
  rfl

end ConsoleBoard.Z80
