/-
The kept bytes of a device.

A device keeps three bytes that follow from others: the levels that it sees,
the levels that edges are counted from, and what the console reads. Whoever
holds a device can do more with it than a hub does (`Device.Access`): run its
protocol out of turn, drive any byte, set counters, or recompute or latch one
of the kept bytes alone. None of this leaves the three behind
(`settled_access`), whatever the protocol answers and keeps.

The list of accesses is the whole interface of a device, so the three equations
hold of any use of it by any protocol, with no assumption on where it comes
from. In a hub they are the same law, since a hub uses a device in no other way.
-/
import ConsoleBoard.Controller.Model
import ConsoleBoard.Proofs.Controller.Settled

namespace ConsoleBoard.Controller

namespace Device

variable {π : Type} [Protocol π]

/-- All that can be done to a device and its core from outside. -/
inductive Access
  | call (c : Call)
  | resetState
  | respond
  | setSerialControl (v : UInt8)
  | setSerialTx (v : UInt8)
  | chain (port : Nat) (sub : Option Nat)
  | observe (port : Nat) (state : Option Chained)
  | setDeviceData (v : UInt8)
  | setCounter (n : Nat)
  | setScanlines (n : Nat)
  | resetSystem
  | resetCounters
  | senseLines
  | latchLines
  | refreshOutput
deriving DecidableEq

def Access.apply (d : Device π) : Access → Device π
  | call c => c.apply d
  | resetState => d.resetState
  | respond => d.respond
  | setSerialControl v => d.setSerialControl v
  | setSerialTx v => d.setSerialTx v
  | chain port sub => (d.chain port sub).toOption.getD d
  | observe port state => d.observe port state
  | setDeviceData v => d.onCore (·.setDeviceData v)
  | setCounter n => d.onCore fun core => { core with counter := n }
  | setScanlines n => d.onCore fun core => { core with scanlines := n }
  | resetSystem => d.onCore Core.resetSystem
  | resetCounters => d.onCore Core.resetCounters
  | senseLines => d.onCore Core.senseLines
  | latchLines => d.onCore Core.latchLines
  | refreshOutput => d.onCore Core.refreshOutput

private theorem settled_fresh : Core.fresh.Settled := ⟨rfl, rfl, rfl⟩

/-- An access leaves the lines settled. -/
theorem settled_access (a : Access) {d : Device π} (h : d.core.Settled) :
    (a.apply d).core.Settled := by
  cases a with
  | call c => exact settled_apply c h
  | respond => exact settled_respond h
  | chain port sub =>
      show ((d.chain port sub).toOption.getD d).core.Settled
      rw [d.core_chain]
      exact h
  | resetSystem => exact ⟨rfl, rfl, rfl⟩
  | senseLines => exact ⟨rfl, h.before.trans h.lines, h.output⟩
  | latchLines => exact ⟨h.lines, rfl, h.output⟩
  | setDeviceData v | refreshOutput => exact ⟨h.lines, h.before, rfl⟩
  | resetState | setSerialControl v | setSerialTx v | observe port state
  | setCounter n | setScanlines n | resetCounters =>
      exact ⟨h.lines, h.before, h.output⟩

/-- Accesses leave the lines settled. -/
private theorem settled_accesses (list : List Access) {d : Device π}
    (h : d.core.Settled) :
    (list.foldl Access.apply d).core.Settled := by
  induction list generalizing d with
  | nil => exact h
  | cons a rest ih => exact ih (settled_access a h)

/-- The kept bytes follow from the others, after every access to a device of any
protocol. It sees the lines that the console drives, and high ones where the
console drives nothing; the console reads its data on the other lines, and
what it wrote itself on these and in bit 7. Edges are counted from the
levels seen, so there is none until registers change, and then the edges are
the lines that this moves. -/
theorem kept_bytes_follow (own : π) (list : List Access) :
    let d := list.foldl Access.apply (⟨Core.fresh, own⟩ : Device π)
    d.core.lines = ~~~d.core.control ||| d.core.systemData
    ∧ d.read = (d.core.deviceData &&& ~~~d.core.control &&& 0x7F)
        ||| (d.core.systemData &&& (d.core.control ||| 0x80))
    ∧ d.core.linesBefore = d.core.lines
    ∧ (∀ pin, d.core.rose pin = false ∧ d.core.fell pin = false)
    ∧ ∀ (control systemData : UInt8) (pin : Pin),
        let now := { d.core with control, systemData }.senseLines
        now.rose pin = (!d.core.line pin && now.line pin)
          ∧ now.fell pin = (d.core.line pin && !now.line pin) := by
  intro d
  have h : d.core.Settled := settled_accesses list settled_fresh
  refine ⟨h.lines, h.output, h.before,
    fun pin => ⟨h.not_rose pin, Core.not_fell h.before pin⟩, ?_⟩
  intro control systemData pin now
  rw [h.line]
  exact ⟨h.rose pin _ rfl, h.fell pin _ rfl⟩

end Device

end ConsoleBoard.Controller
