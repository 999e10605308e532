/-
What a host and a console do at the controller ports.

Every call is one operation (`Hub.Operation`), and its answer is part of what
it does: a refused one says why and leaves the hub as it is. An operation
deals with the wiring or with the devices. Where the ports lead afterwards is
said here (`Hub.frame_after`), and nothing but a connection leads them
elsewhere.

# The frame

Most operations work on devices and leave the version and the ports as they are.
That is `SameFrame`, kept by everything that a call is made of
(`SameFrame.sync`, `SameFrame.readData`, `SameFrame.attempt`), so only
connections and new devices have a case of their own in `frame_after`.
-/
import ConsoleBoard.Controller.Hub

namespace ConsoleBoard.Controller

namespace Hub

-- ============================================================== operations

/-- One call of the host, or one access of the console. -/
inductive Operation
  | add (kind : Kind)
  | replace (id : Nat) (kind : Kind)
  | connect (port : Port) (id : Nat)
  | connectNew (port : Port) (kind : Kind)
  | attach (tap port : Nat) (sub : Option Nat)
  | updateButtons (id : Nat) (buttons : UInt32)
  | updatePort (port : Port) (buttons : UInt32)
  | moveTo (id : Nat) (x y : Int)
  | scanline
  | reset
  | resetDevices
  | readData (port : Port)
  | writeData (port : Port) (v : UInt8)
  | readControl (port : Port)
  | writeControl (port : Port) (v : UInt8)
  | readRegister (index : Nat)
  | writeRegister (index : Nat) (v : UInt8)
deriving DecidableEq

/-- What a call returns. -/
inductive Reply
  | done
  | refused (e : Error)
  | id (n : Nat)
  | byte (v : UInt8)
deriving DecidableEq

/-- A call that may be refused, which then leaves the hub as it was. -/
def attempt (hub : Hub) : Except Error Hub → Reply × Hub
  | .ok after => (.done, after)
  | .error e => (.refused e, hub)

def Operation.perform (hub : Hub) : Operation → Reply × Hub
  | add kind =>
      let (n, after) := hub.add (Device.create (.ofKind kind))
      (.id n, after)
  | replace id kind =>
      hub.attempt (hub.replace id (Device.create (.ofKind kind)))
  | connect port id => hub.attempt (hub.connect port id)
  | connectNew port kind =>
      let (n, after) := hub.connectNew port kind
      (.id n, after)
  | attach tap port sub => hub.attempt (hub.attach tap port sub)
  | updateButtons id buttons => hub.attempt (hub.updateButtons id buttons)
  | updatePort port buttons => (.done, hub.updatePort port buttons)
  | moveTo id x y => hub.attempt (hub.moveTo id x y)
  | scanline => (.done, hub.scanline)
  | reset => (.done, hub.reset)
  | resetDevices => (.done, hub.resetDevices)
  | readData port =>
      let (v, after) := hub.readData port
      (.byte v, after)
  | writeData port v => (.done, hub.writeData port v)
  | readControl port => (.byte (hub.readControl port), hub)
  | writeControl port v => (.done, hub.writeControl port v)
  | readRegister index =>
      let (v, after) := hub.readRegister index
      (.byte v, after)
  | writeRegister index v => (.done, hub.writeRegister index v)

/-- The hub behind an operation. -/
def after (hub : Hub) (op : Operation) : Hub := (op.perform hub).2

-- ========================================================== accepted calls

section Accepted

variable {hub hub' : Hub} {id : Nat}

/-- A replacement that succeeds changes the one device and nothing else. -/
private theorem replace_ok {d : Peripheral} (h : hub.replace id d = .ok hub') :
    hub' = { hub with devices := hub.devices.setIfInBounds id d } := by
  unfold replace at h
  split at h
  · exact (Except.ok.inj h).symm
  · cases h

private theorem index_ne {p port : Port} (hp : p ≠ port) :
    p.index.val ≠ port.index.val := by
  intro hindex
  refine hp ?_
  cases p <;> cases port <;> first | rfl | cases hindex

/-- A connection changes no device. -/
theorem connect_ok {p : Port} (h : hub.connect p id = .ok hub') :
    hub'.devices = hub.devices := by
  unfold connect at h
  split at h
  · cases h
    rfl
  · cases h

/-- Buttons that are taken are constrained for a device with a direction pad. -/
private theorem updateButtons_ok {buttons : UInt32}
    (h : hub.updateButtons id buttons = .ok hub') :
    hub' = hub.modify id fun d =>
      d.update (if d.hasDpad then constrainDpad buttons else buttons) := by
  unfold updateButtons at h
  split at h
  · exact (Except.ok.inj h).symm
  · cases h

private theorem moveTo_ok {x y : Int} (h : hub.moveTo id x y = .ok hub') :
    hub' = hub.modify id fun d => d.moveTo x y := by
  unfold moveTo at h
  split at h
  · exact (Except.ok.inj h).symm
  · cases h

/-- The device takes the chained one into its list, and then sees it. -/
theorem attach_ok {port : Nat} {sub : Option Nat}
    (h : hub.attach id port sub = .ok hub') :
    ∃ d d', hub.device? id = some d ∧ d.chain port sub = .ok d'
      ∧ hub' = (hub.modify id fun _ => d').sync id := by
  unfold attach at h
  split at h
  · cases h
  next d hd =>
    split at h
    · split at h <;> cases h
    · cases hchain : d.chain port sub with
      | error e =>
          rw [hchain] at h
          cases h
      | ok d' =>
          rw [hchain] at h
          exact ⟨d, d', hd, hchain, (Except.ok.inj h).symm⟩

end Accepted

-- ============================================================== one device

/-- A changed device is the only one that changes. -/
theorem device?_modify (hub : Hub) (id : Nat) (change : Peripheral → Peripheral)
    (id' : Nat) :
    (hub.modify id change).device? id'
      = if id = id' then (hub.device? id').map change else hub.device? id' :=
  Array.getElem?_modify

-- ============================================================== the wiring

/-- The device that a port leads to after an operation. -/
def Operation.leads (hub : Hub) (port : Port) : Operation → Nat
  | connect p id =>
      if p = port ∧ id < hub.devices.size then id else hub.portDevice port
  | connectNew p _ => if p = port then hub.devices.size else hub.portDevice port
  | _ => hub.portDevice port

/-- The ports of the hubs lead to the same devices, and the version is the same,
whatever the devices are. -/
def SameFrame (hub hub' : Hub) : Prop :=
  (∀ port, hub'.portDevice port = hub.portDevice port)
    ∧ hub'.version = hub.version

/-- Hubs with the same devices on their ports have the same ports. -/
theorem ports_ext {hub hub' : Hub}
    (h : ∀ port, hub.portDevice port = hub'.portDevice port) :
    hub.ports = hub'.ports :=
  Vector.ext fun i _ =>
    match i with
    | 0 => h .one
    | 1 => h .two
    | 2 => h .ext

namespace SameFrame

variable {hub hub' hub'' : Hub}

theorem refl (hub : Hub) : SameFrame hub hub := ⟨fun _ => rfl, rfl⟩

theorem trans (h : SameFrame hub hub') (h' : SameFrame hub' hub'') :
    SameFrame hub hub'' :=
  ⟨fun port => (h'.1 port).trans (h.1 port), h'.2.trans h.2⟩

/-- Synchronizing a device leaves the frame. -/
theorem sync (hub : Hub) (id : Nat) : SameFrame hub (hub.sync id) := by
  unfold Hub.sync
  split
  · exact refl hub
  · split
    · exact refl hub
    · exact ⟨fun _ => rfl, rfl⟩

theorem syncs (ports : List Port) (hub : Hub) :
    SameFrame hub
      (ports.foldl (fun hub port => hub.sync (hub.portDevice port)) hub) := by
  induction ports generalizing hub with
  | nil => exact refl hub
  | cons port rest ih => exact .trans (sync hub _) (ih _)

/-- A reset leaves the frame. -/
theorem reset (hub : Hub) : SameFrame hub hub.reset := by
  unfold Hub.reset
  exact .trans ⟨fun _ => rfl, rfl⟩ (syncs Port.all _)

theorem readData (hub : Hub) (port : Port) :
    SameFrame hub (hub.readData port).2 :=
  sync hub _

/-- An attempt leaves the frame if a success does. -/
theorem attempt {result : Except Error Hub}
    (h : ∀ hub', result = .ok hub' → SameFrame hub hub') :
    SameFrame hub (hub.attempt result).2 := by
  cases result with
  | ok hub' => exact h hub' rfl
  | error e => exact refl hub

/-- New buttons on a port leave the frame. -/
private theorem updatePort (hub : Hub) (port : Port) (buttons : UInt32) :
    SameFrame hub (hub.updatePort port buttons) := by
  unfold Hub.updatePort
  split
  next hok =>
    obtain rfl := updateButtons_ok hok
    exact ⟨fun _ => rfl, rfl⟩
  next => exact refl hub

/-- A read of a register leaves the frame; only the data registers do more
than show what there is. -/
private theorem readRegister (hub : Hub) (index : Nat) :
    SameFrame hub (hub.readRegister index).2 := by
  unfold Hub.readRegister
  split
  case h_2 => exact readData hub _
  all_goals exact refl hub

/-- A write to a register leaves the frame. -/
private theorem writeRegister (hub : Hub) (index : Nat) (v : UInt8) :
    SameFrame hub (hub.writeRegister index v) := by
  unfold Hub.writeRegister
  split
  case h_2 | h_3 => exact sync hub _
  all_goals exact ⟨fun _ => rfl, rfl⟩

end SameFrame

/-- A port that is set leads to the device given, the others where they led. -/
private theorem portDevice_set (hub : Hub) (p port : Port) (id : Nat) :
    Hub.portDevice
        { hub with ports := hub.ports.set p.index id p.index.isLt } port
      = if p = port then id else hub.portDevice port := by
  unfold portDevice
  by_cases hp : p = port
  · subst hp
    rw [if_pos rfl]
    exact Vector.getElem_set_self p.index.isLt
  · rw [if_neg hp]
    exact Vector.getElem_set_ne p.index.isLt port.index.isLt (index_ne hp)

/-- Connecting a device that is there moves one port, and nothing else. -/
private theorem frame_connect (hub : Hub) (p : Port) (id : Nat) :
    (∀ port, (hub.attempt (hub.connect p id)).2.portDevice port
        = if p = port ∧ id < hub.devices.size then id
          else hub.portDevice port)
      ∧ (hub.attempt (hub.connect p id)).2.version = hub.version := by
  unfold connect
  by_cases hid : id < hub.devices.size
  · rw [if_pos hid]
    refine ⟨fun port => ?_, rfl⟩
    simp only [hid, and_true]
    exact hub.portDevice_set p port id
  · rw [if_neg hid]
    refine ⟨fun port => ?_, rfl⟩
    rw [if_neg fun h => hid h.2]
    rfl

/-- An operation leads the ports elsewhere if it connects something, and never
touches the version. -/
theorem frame_after (hub : Hub) (op : Operation) :
    (∀ port, (hub.after op).portDevice port = op.leads hub port)
      ∧ (hub.after op).version = hub.version := by
  cases op with
  | connect p id => exact frame_connect hub p id
  | connectNew p kind =>
      exact ⟨fun port => hub.portDevice_set p port hub.devices.size, rfl⟩
  | replace id kind =>
      refine SameFrame.attempt fun hub' hok => ?_
      obtain rfl := replace_ok hok
      exact ⟨fun _ => rfl, rfl⟩
  | attach tap port sub =>
      refine SameFrame.attempt fun hub' hok => ?_
      obtain ⟨d, d', -, -, rfl⟩ := attach_ok hok
      exact SameFrame.sync _ tap
  | updateButtons id buttons =>
      refine SameFrame.attempt fun hub' hok => ?_
      obtain rfl := updateButtons_ok hok
      exact ⟨fun _ => rfl, rfl⟩
  | updatePort port buttons => exact SameFrame.updatePort hub port buttons
  | moveTo id x y =>
      refine SameFrame.attempt fun hub' hok => ?_
      obtain rfl := moveTo_ok hok
      exact ⟨fun _ => rfl, rfl⟩
  | add _ | scanline | resetDevices | readControl _ => exact ⟨fun _ => rfl, rfl⟩
  | reset => exact SameFrame.reset hub
  | readData port => exact SameFrame.readData hub port
  | writeData port v | writeControl port v => exact SameFrame.sync hub _
  | readRegister index => exact SameFrame.readRegister hub index
  | writeRegister index v => exact SameFrame.writeRegister hub index v

/-- The operation connects a device to the port. -/
def Operation.Connects (port : Port) : Operation → Prop
  | connect p _ | connectNew p _ => p = port
  | _ => False

/-- Only connecting something to a port changes the device on it. -/
theorem portDevice_after {op : Operation} {port : Port} (h : ¬op.Connects port)
    (hub : Hub) :
    (hub.after op).portDevice port = hub.portDevice port := by
  rw [(frame_after hub op).1]
  cases op with
  | connect p id => exact if_neg fun hconnect => h hconnect.1
  | connectNew p kind => exact if_neg h
  | _ => rfl

end Hub

end ConsoleBoard.Controller
