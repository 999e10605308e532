/-
Two hubs that go through the same.

Laws about two runs compare hubs that differ in something: a register that
was written in one of them only, or all that happened before a reset. Say
what the devices of both have in common (`Paired`). If it includes their
outlines, the next event does the same acts to both (`Paired.layout`), so
what these acts keep, the event keeps (`Paired.next`).

A pairing is a relation on devices, given for each id, and a hub has nothing
else but its ports and its version, which paired hubs share. The relations in
use are `Agree` (the register block) and `Alike` (resets); both include the
outlines, so both ride on the same step.
-/
import ConsoleBoard.Proofs.Controller.Effect

namespace ConsoleBoard.Controller

namespace Hub

/-- Hubs whose ports lead to the same places, with the same version, and with
the same number of devices, which are related one by one. -/
structure Paired (R : Nat → Peripheral → Peripheral → Prop)
    (hub hub' : Hub) : Prop where
  portDevice : ∀ port, hub.portDevice port = hub'.portDevice port
  version : hub.version = hub'.version
  devices : ∀ id, Option.Rel (R id) (hub.device? id) (hub'.device? id)

namespace Paired

variable {R : Nat → Peripheral → Peripheral → Prop} {hub hub' : Hub}

/-- What the relation keeps of a device is the same in both hubs. -/
theorem map_eq {α : Type} {f : Peripheral → α} {id : Nat}
    (h : Paired R hub hub')
    (hf : ∀ d d', hub.device? id = some d → R id d d' → f d = f d') :
    (hub.device? id).map f = (hub'.device? id).map f := by
  have hpair := h.devices id
  generalize hdevice : hub.device? id = d, hub'.device? id = d' at hpair ⊢
  cases hpair with
  | some hd => exact congrArg some (hf _ _ hdevice hd)
  | none => rfl

/-- Paired hubs with equal outlines have one layout. -/
theorem layout (houtline : ∀ id d d', R id d d' → d.outline = d'.outline)
    (h : Paired R hub hub') : hub.layout = hub'.layout :=
  layout_ext h.portDevice fun id => h.map_eq fun _ _ _ hd => houtline id _ _ hd

theorem deviceCount (houtline : ∀ id d d', R id d d' → d.outline = d'.outline)
    (h : Paired R hub hub') : hub.deviceCount = hub'.deviceCount := by
  have hsize := congrArg (·.devices.size) (h.layout houtline)
  simp only [size_layout] at hsize
  exact hsize

/-- The pairs stay related through an event if its acts keep them so. -/
theorem next (hrefl : ∀ id d, R id d d)
    (houtline : ∀ id d d', R id d d' → d.outline = d'.outline)
    {e : Event}
    (hacts : ∀ id d d', hub.device? id = some d → R id d d' →
      R id (d.acted (hub.layout.eventActs id e))
        (d'.acted (hub.layout.eventActs id e)))
    (h : Paired R hub hub') : Paired R (hub.next e) (hub'.next e) := by
  have hcount : hub.devices.size = hub'.devices.size := h.deviceCount houtline
  -- ports and version go by the event alone; the devices then go by its acts
  have hframe : SameFrame (hub.next e) (hub'.next e) := by
    cases e with
    | operation op =>
        obtain ⟨hports, hversion⟩ := frame_after hub op
        obtain ⟨hports', hversion'⟩ := frame_after hub' op
        refine ⟨fun port => ?_,
          hversion'.trans (h.version.symm.trans hversion.symm)⟩
        refine (hports' port).trans (Eq.trans ?_ (hports port).symm)
        unfold Operation.leads
        rw [h.portDevice, hcount]
    | setVersion v => exact ⟨fun port => (h.portDevice port).symm, rfl⟩
    | device id c =>
        exact ⟨fun port => (h.portDevice port).symm, h.version.symm⟩
  refine ⟨fun port => (hframe.1 port).symm, hframe.2.symm, fun id => ?_⟩
  rw [device?_next, device?_next, ← h.layout houtline, ← h.deviceCount houtline]
  have hpair := h.devices id
  generalize hdevice : hub.device? id = d, hub'.device? id = d' at hpair ⊢
  cases hpair with
  | some hd => exact .some (hacts id _ _ hdevice hd)
  | none =>
      show Option.Rel _ (ite _ _ _) (ite _ _ _)
      split
      · cases e.added with
        | none => exact .none
        | some kind => exact .some (hrefl id _)
      · exact .none

end Paired

end Hub

end ConsoleBoard.Controller
