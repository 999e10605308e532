/-
What happens to each device.

A hub does few things to a device (`Device.Act`): it puts another one in its
place, links it to others, shows it the devices on its virtual ports, presses
its buttons, or passes a call on. What an operation does to the device with
some number is a list of such acts (`Layout.acts`), and `device?_after` says
that it does nothing else. So a law about devices is proved act by act and
holds behind every operation.

The acts are chosen by the layout of the hub alone: the ports, and of each
device its kind, its buttons and what is linked to it (`Outline`). Lines,
counters and what a multitap has seen have no say in them. So two hubs of the
same layout do the same to their devices.
-/
import ConsoleBoard.Proofs.Controller.Operation
import ConsoleBoard.Proofs.Controller.Settled

namespace ConsoleBoard.Controller

-- ============================================================== the layout

/-- What a hub goes by when it deals with a device. -/
structure Outline extends Chained where
  links : List (Option Nat)
deriving DecidableEq

def Device.outline (d : Peripheral) : Outline :=
  { kind := d.kind, buttons := d.core.buttons, links := d.chained }

/-- The ports and the outlines of the devices. -/
structure Layout where
  devices : Array Outline
  ports : Vector Nat 3
deriving DecidableEq

namespace Layout

variable (l : Layout)

def portDevice (port : Port) : Nat := l.ports.get port.index

/-- What a multitap sees of a device. -/
def chained? (id : Nat) : Option Chained :=
  (l.devices[id]?).map Outline.toChained

/-- What device `id` sees on its virtual ports. -/
def seenBy (id : Nat) : List (Option Chained) :=
  match l.devices[id]? with
  | some x => x.links.map fun sub => sub.bind l.chained?
  | none => []

/-- With another device linked. -/
def linked (tap port : Nat) (sub : Option Nat) : Layout :=
  { l with
    devices := l.devices.modify tap fun x =>
      { x with links := x.links.set port sub } }

/-- With no button pressed. -/
def released : Layout :=
  { l with
    devices := l.devices.map fun x => { x with buttons := Button.released } }

/-- Why a device cannot be linked to a virtual port. -/
def refusal (tap port : Nat) (sub : Option Nat) : Option Error :=
  match l.devices[tap]? with
  | none => some (.invalidDevice tap)
  | some x =>
    match sub.filter fun id => decide (l.devices.size ≤ id) || id == tap with
    | some id =>
        some (if id < l.devices.size then .selfReference id
          else .invalidDevice id)
    | none =>
      if x.kind = .teamPlayer ∧ TeamPlayer.portCount ≤ port then
        some (.virtualPortOutOfRange port TeamPlayer.portCount)
      else none

end Layout

def Hub.layout (hub : Hub) : Layout :=
  ⟨hub.devices.map Device.outline, hub.ports⟩

-- ================================================================ the acts

namespace Device

/-- The device with another one linked to a virtual port, if it has that
port. -/
def link (d : Peripheral) (port : Nat) (sub : Option Nat) : Peripheral :=
  (d.chain port sub).toOption.getD d

/-- The device after a look at the devices linked to it. -/
def see (d : Peripheral) (states : List (Option Chained)) : Peripheral :=
  if d.chained.isEmpty then d else (Hub.observeFrom d 0 states).refresh

/-- The device with new buttons; a pad cannot hold opposite directions. -/
def press (d : Peripheral) (buttons : UInt32) : Peripheral :=
  d.update (if d.hasDpad then constrainDpad buttons else buttons)

/-- What a hub does to a device. -/
inductive Act
  | place (kind : Kind)
  | link (port : Nat) (sub : Option Nat) (states : List (Option Chained))
  | see (states : List (Option Chained))
  | access (states : List (Option Chained)) (c : Call)
  | press (buttons : UInt32)
  | call (c : Call)
  | sendSerial (v : UInt8)
  | setSerial (v : UInt8)
  | restart
deriving DecidableEq

def Act.apply (d : Peripheral) : Act → Peripheral
  | place kind => Device.create (.ofKind kind)
  | link port sub states => (d.link port sub).see states
  | see states => d.see states
  | access states c => c.apply (d.see states)
  | press buttons => d.press buttons
  | call c => c.apply d
  | sendSerial v => d.setSerialTx v
  | setSerial v => d.setSerialControl v
  | restart => d.resetState.refresh

/-- What several acts make of a device. -/
def acted (d : Peripheral) (acts : List Act) : Peripheral :=
  acts.foldl Act.apply d

/-- The act, if it is this device's. -/
def Act.only (target id : Nat) (a : Act) : List Act :=
  if target = id then [a] else []

/-- What is only meant for one device. -/
theorem Act.forall_only {P : Act → Prop} {b : Act} {target id : Nat}
    (h : target = id → P b) :
    ∀ a ∈ b.only target id, P a := by
  unfold Act.only
  split
  next htarget =>
    intro a ha
    obtain rfl := List.mem_singleton.1 ha
    exact h htarget
  next => exact fun a ha => nomatch ha

/-- What each of several acts keeps, they keep together. -/
theorem forall_acted {P : Peripheral → Prop} {acts : List Act} {d : Peripheral}
    (hact : ∀ a ∈ acts, ∀ d, P d → P (a.apply d)) (h : P d) :
    P (d.acted acts) :=
  List.foldlRecOn acts _ h fun d hd a ha => hact a ha d hd

/-- A device that is not meant stays, and the one that is meant changes. -/
theorem acted_only {P : Peripheral → Prop} {d : Peripheral} {a : Act}
    (hact : P (a.apply d)) (hother : P d) (target id : Nat) :
    P (d.acted (a.only target id)) := by
  unfold Act.only
  split
  · exact hact
  · exact hother

end Device

open Device (Act)

/-- What an operation does to device `id`. -/
def Layout.acts (l : Layout) (id : Nat) : Hub.Operation → List Act
  | .add _ | .connect _ _ | .connectNew _ _ | .readControl _ => []
  | .replace target kind => (Act.place kind).only target id
  | .attach tap port sub =>
    if (l.refusal tap port sub).isSome then []
    else (Act.link port sub ((l.linked tap port sub).seenBy tap)).only tap id
  | .updateButtons target buttons => (Act.press buttons).only target id
  | .updatePort port buttons => (Act.press buttons).only (l.portDevice port) id
  | .moveTo target x y => (Act.call (.moveTo x y)).only target id
  | .scanline => [.call .scanline]
  | .reset =>
    .call .reset :: Port.all.flatMap fun port =>
      (Act.see (l.released.seenBy id)).only (l.portDevice port) id
  | .resetDevices => [.restart]
  | .readData port =>
      (Act.access (l.seenBy id) .noteRead).only (l.portDevice port) id
  | .writeData port v =>
      (Act.access (l.seenBy id) (.writeData v)).only (l.portDevice port) id
  | .writeControl port v =>
    (Act.access (l.seenBy id) (.writeControl v)).only (l.portDevice port) id
  | .readRegister index =>
    match Hub.registers[index]? with
    | some (.data port) =>
        (Act.access (l.seenBy id) .noteRead).only (l.portDevice port) id
    | _ => []
  | .writeRegister index v =>
    match Hub.registers[index]? with
    | some (.data port) =>
        (Act.access (l.seenBy id) (.writeData v)).only (l.portDevice port) id
    | some (.control port) =>
      (Act.access (l.seenBy id) (.writeControl v)).only (l.portDevice port) id
    | some (.transmit port) => (Act.sendSerial v).only (l.portDevice port) id
    | some (.serialControl port) =>
      (Act.setSerial (v &&& Hub.serialControlMask)).only (l.portDevice port) id
    | _ => []

/-- The kind of device that an operation adds behind the others. -/
def Hub.Operation.added : Operation → Option Kind
  | add kind | connectNew _ kind => some kind
  | _ => none

-- ===================================================== outlines of devices

namespace Device

/-- Only a multitap has virtual ports, and it refuses others. -/
theorem chain_eq (d : Peripheral) (port : Nat) (sub : Option Nat) :
    d.chain port sub
      = if d.kind = .teamPlayer ∧ TeamPlayer.portCount ≤ port then
          .error (.virtualPortOutOfRange port TeamPlayer.portCount)
        else .ok (d.link port sub) := by
  obtain ⟨core, own⟩ := d
  cases own with
  | teamPlayer tap =>
      by_cases hport : port < 4
      · have hfits : ¬TeamPlayer.portCount ≤ port := Nat.not_le.2 hport
        have hchain : ∃ tap', tap.chain port sub = .ok tap' := by
          simp [TeamPlayer.chain, hport]
        obtain ⟨tap', htap⟩ := hchain
        have hok : Device.chain (⟨core, .teamPlayer tap⟩ : Peripheral) port sub
            = .ok ⟨core, .teamPlayer tap'⟩ := by
          show ((tap.chain port sub).map Model.teamPlayer).map
            (Device.mk core) = _
          rw [htap]
          rfl
        rw [if_neg fun h => hfits h.2, link, hok]
        rfl
      · have hlarge : TeamPlayer.portCount ≤ port := Nat.not_lt.1 hport
        rw [if_pos ⟨rfl, hlarge⟩]
        show ((tap.chain port sub).map Model.teamPlayer).map
          (Device.mk core) = _
        rw [TeamPlayer.chain, dif_neg hport]
        rfl
  | none | twoButton | threeButton | sixButton | paddle | coleco =>
      rw [if_neg fun h => nomatch h.1]
      rfl

/-- A link on a multitap's port is taken. -/
theorem link_tap (core : Core) (tap : TeamPlayer) {port : Nat} (h : port < 4)
    (sub : Option Nat) :
    Device.link (⟨core, .teamPlayer tap⟩ : Peripheral) port sub
      = ⟨core, .teamPlayer
          { ports := tap.ports.set port sub
            seen := if sub.isNone then tap.seen.set port none
              else tap.seen }⟩ := by
  show ((((tap.chain port sub).map Model.teamPlayer).map
      (Device.mk core)).toOption).getD _ = _
  rw [TeamPlayer.chain, dif_pos h]
  rfl

/-- A link outside the ports of a multitap is dropped. -/
theorem link_outside (core : Core) (tap : TeamPlayer) {port : Nat}
    (h : ¬port < 4) (sub : Option Nat) :
    Device.link (⟨core, .teamPlayer tap⟩ : Peripheral) port sub
      = ⟨core, .teamPlayer tap⟩ := by
  show ((((tap.chain port sub).map Model.teamPlayer).map
      (Device.mk core)).toOption).getD _ = _
  rw [TeamPlayer.chain, dif_neg h]
  rfl

theorem outline_link (d : Peripheral) (port : Nat) (sub : Option Nat) :
    (d.link port sub).outline = { d.outline with
      links := d.outline.links.set port sub } := by
  obtain ⟨core, own⟩ := d
  cases own with
  | teamPlayer tap =>
      have hlinks : (Device.outline ⟨core, .teamPlayer tap⟩).links
          = tap.ports.toList := rfl
      rw [hlinks]
      by_cases hport : port < 4
      · rw [link_tap core tap hport, ← Vector.toList_set hport]
        rfl
      · rw [link_outside core tap hport,
          List.set_eq_of_length_le (by simpa using Nat.not_lt.1 hport)]
        rfl
  | none | twoButton | threeButton | sixButton | paddle | coleco => rfl

theorem outline_observe (d : Peripheral) (port : Nat) (state : Option Chained) :
    Device.outline (Device.observe d port state) = d.outline := by
  obtain ⟨core, own⟩ := d
  cases own with
  | teamPlayer tap =>
      have hports : (tap.observe port state).ports = tap.ports := by
        unfold TeamPlayer.observe
        split <;> rfl
      show Outline.mk _ (tap.observe port state).ports.toList = _
      rw [hports]
      rfl
  | none | twoButton | threeButton | sixButton | paddle | coleco => rfl

/-- What a device has seen of others is not in its core. -/
theorem core_observeFrom (d : Peripheral) (port : Nat)
    (states : List (Option Chained)) :
    (Hub.observeFrom d port states).core = d.core := by
  induction states generalizing d port with
  | nil => rfl
  | cons state rest ih => exact ih _ _

theorem outline_observeFrom (d : Peripheral) (port : Nat)
    (states : List (Option Chained)) :
    Device.outline (Hub.observeFrom d port states) = d.outline := by
  induction states generalizing d port with
  | nil => rfl
  | cons state rest ih => exact (ih _ _).trans (outline_observe d port state)

/-- What a multitap has seen of all its ports is a picture of its own. -/
theorem observeFrom_tap (core : Core) (tap : TeamPlayer)
    (seen : Vector (Option Chained) 4) :
    Hub.observeFrom ⟨core, .teamPlayer tap⟩ 0 seen.toList
      = ⟨core, .teamPlayer { tap with seen }⟩ := by
  obtain ⟨ports, old⟩ := tap
  match old, seen with
  | ⟨⟨[_, _, _, _]⟩, _⟩, ⟨⟨[_, _, _, _]⟩, _⟩ => rfl

/-- A multitap always looks at its ports. -/
theorem see_tap {d : Peripheral} (h : d.kind = .teamPlayer)
    (states : List (Option Chained)) :
    d.see states = (Hub.observeFrom d 0 states).refresh := by
  obtain ⟨core, own⟩ := d
  cases own with
  | teamPlayer tap =>
      have hchained : ¬tap.ports.toList.isEmpty := by simp
      exact if_neg hchained
  | none | twoButton | threeButton | sixButton | paddle | coleco => cases h

/-- And nothing else has any. -/
theorem link_of_ne {d : Peripheral} (h : d.kind ≠ .teamPlayer) (port : Nat)
    (sub : Option Nat) :
    d.link port sub = d := by
  obtain ⟨core, own⟩ := d
  cases own with
  | teamPlayer tap => exact absurd rfl h
  | none | twoButton | threeButton | sixButton | paddle | coleco => rfl

theorem outline_see (d : Peripheral) (states : List (Option Chained)) :
    (d.see states).outline = d.outline := by
  unfold see
  split
  · rfl
  · exact outline_observeFrom d 0 states

/-- Calls change no more of an outline than the buttons. -/
theorem outline_call (c : Call) (d : Peripheral) :
    (c.apply d).outline = { d.outline with
      buttons := match c with
        | .update buttons => buttons
        | .reset => Button.released
        | _ => d.core.buttons } := by
  cases c with
  | scanline =>
      show d.scanline.outline = d.outline
      unfold scanline
      split <;> rfl
  | noteRead =>
      show d.noteRead.outline = d.outline
      unfold noteRead
      split <;> rfl
  | writeControl v | writeData v | update buttons | moveTo x y | setPin58 v
  | refresh | reset => rfl

/-- Whether a device has a direction pad is read off its kind. -/
theorem hasDpad_eq {d d' : Peripheral} (h : d.kind = d'.kind) :
    d.hasDpad = d'.hasDpad := by
  obtain ⟨core, own⟩ := d
  obtain ⟨core', own'⟩ := d'
  cases own <;> cases own' <;> first | rfl | cases h

/-- Acts go by outlines, so they keep them alike. -/
theorem outline_act {d d' : Peripheral} (h : d.outline = d'.outline) (a : Act) :
    (a.apply d).outline = (a.apply d').outline := by
  -- what a call leaves of the outline goes by the outline and the buttons
  have hcall : ∀ {d d' : Peripheral} (c : Call), d.outline = d'.outline →
      (c.apply d).outline = (c.apply d').outline := by
    intro d d' c h
    have hbuttons : d.core.buttons = d'.core.buttons := congrArg (·.buttons) h
    rw [outline_call, outline_call, h, hbuttons]
  cases a with
  | place kind => rfl
  | link port sub states =>
      show ((d.link port sub).see states).outline
        = ((d'.link port sub).see states).outline
      rw [outline_see, outline_see, outline_link, outline_link, h]
  | see states =>
      show (d.see states).outline = (d'.see states).outline
      rw [outline_see, outline_see, h]
  | access states c =>
      exact hcall c
        ((d.outline_see states).trans (h.trans (d'.outline_see states).symm))
  | press buttons =>
      have hdpad : d.hasDpad = d'.hasDpad := hasDpad_eq (congrArg (·.kind) h)
      show (Call.apply (.update _) d).outline
        = (Call.apply (.update _) d').outline
      rw [hdpad]
      exact hcall _ h
  | call c => exact hcall c h
  | sendSerial v | setSerial v | restart => exact h

end Device

-- ======================================================= the hub's devices

namespace Hub

/-- The layout holds the outlines of the devices. -/
theorem devices_layout (hub : Hub) (id : Nat) :
    hub.layout.devices[id]? = (hub.device? id).map Device.outline :=
      Array.getElem?_map

/-- The empty hub has nothing but the device that stands for no device. -/
theorem device?_empty {id : Nat} {d : Peripheral}
    (h : empty.device? id = some d) :
    d = Device.create .none := by
  have hreplicate : (Array.replicate 3 (Device.create Model.none))[id]?
      = some d := h
  rw [Array.getElem?_replicate] at hreplicate
  split at hreplicate
  · exact (Option.some.inj hreplicate).symm
  · cases hreplicate

/-- The ids below the count are those with a device. -/
theorem lt_deviceCount_iff {hub : Hub} {id : Nat} :
    id < hub.deviceCount ↔ (hub.device? id).isSome :=
  ⟨fun h => Option.isSome_iff_exists.2 ⟨_, Array.getElem?_eq_getElem h⟩,
    fun h =>
    (Array.getElem?_eq_some_iff.1 (Option.isSome_iff_exists.1 h).choose_spec).1⟩

theorem size_layout (hub : Hub) : hub.layout.devices.size = hub.devices.size :=
  Array.size_map

theorem chained?_layout (hub : Hub) :
    hub.layout.chained? = hub.chainedState := by
  funext id
  unfold Layout.chained? chainedState
  rw [devices_layout, Option.map_map]
  rfl

/-- Hubs that look alike on all ports and devices have one layout. -/
theorem layout_ext {hub hub' : Hub}
    (hports : ∀ port, hub.portDevice port = hub'.portDevice port)
    (hdevices : ∀ id, (hub.device? id).map Device.outline
      = (hub'.device? id).map Device.outline) :
    hub.layout = hub'.layout := by
  have harray : hub.layout.devices = hub'.layout.devices :=
    Array.ext_getElem? fun id => by
    rw [devices_layout, devices_layout, hdevices]
  exact congrArg₂ Layout.mk harray (ports_ext hports)

/-- A device sees the devices linked to it as they are. -/
theorem seenBy_layout {hub : Hub} {id : Nat} {d : Peripheral}
    (h : hub.device? id = some d) :
    hub.layout.seenBy id = d.chained.map fun sub =>
      sub.bind hub.chainedState := by
  unfold Layout.seenBy
  rw [devices_layout, h, chained?_layout]
  rfl

/-- A synchronized device sees what is chained to it; the others are left
alone. -/
theorem device?_sync (hub : Hub) (target id : Nat) :
    (hub.sync target).device? id
      = (hub.device? id).map fun d =>
        d.acted ((Act.see (hub.layout.seenBy id)).only target id) := by
  unfold Act.only
  by_cases hid : target = id
  · subst hid
    rw [if_pos rfl]
    unfold sync
    cases hd : hub.device? target with
    | none => exact hd
    | some d =>
        show _ = some (d.see (hub.layout.seenBy target))
        rw [seenBy_layout hd]
        unfold Device.see
        dsimp only
        by_cases hempty : d.chained.isEmpty
        · rw [if_pos hempty, if_pos hempty]
          exact hd
        · rw [if_neg hempty, if_neg hempty, device?_modify, if_pos rfl, hd]
          rfl
  · rw [if_neg hid]
    have hsame : (hub.sync target).device? id = hub.device? id := by
      unfold sync
      split
      · rfl
      · split
        · rfl
        · rw [device?_modify, if_neg hid]
    rw [hsame]
    cases hub.device? id <;> rfl

private theorem layout_sync (hub : Hub) (target : Nat) :
    (hub.sync target).layout = hub.layout := by
  refine layout_ext (SameFrame.sync hub target).1 fun id => ?_
  rw [device?_sync]
  cases hub.device? id with
  | none => rfl
  | some d =>
      unfold Act.only
      split
      · exact congrArg some (d.outline_see _)
      · rfl

/-- One after the other, the devices on some ports look at their own. -/
theorem device?_syncs (ports : List Port) (hub : Hub) (id : Nat) :
    (ports.foldl (fun hub port => hub.sync (hub.portDevice port)) hub).device?
      id
      = (hub.device? id).map fun d => d.acted (ports.flatMap fun port =>
          (Act.see (hub.layout.seenBy id)).only (hub.portDevice port) id) := by
  induction ports generalizing hub with
  | nil =>
      have hsame : ∀ d : Option Peripheral, d = d.map fun d => d.acted [] :=
        fun d => by
        cases d <;> rfl
      exact hsame _
  | cons port rest ih =>
      have hports : ∀ p, (hub.sync (hub.portDevice port)).portDevice p
          = hub.portDevice p :=
        (SameFrame.sync hub _).1
      rw [List.foldl_cons, ih, device?_sync, layout_sync, Option.map_map]
      simp only [hports, List.flatMap_cons, Device.acted, List.foldl_append,
        Function.comp_def]

private theorem layout_reset (hub : Hub) :
    Hub.layout { hub with devices := hub.devices.map Device.reset }
      = hub.layout.released := by
  unfold layout Layout.released
  rw [Array.map_map, Array.map_map]
  rfl

/-- A reset of the hub, seen from one device. -/
theorem device?_reset (hub : Hub) (id : Nat) :
    hub.reset.device? id
      = (hub.device? id).map fun d => d.acted (hub.layout.acts id .reset) := by
  have hmap : Hub.device? { hub with
      devices := hub.devices.map Device.reset } id
      = (hub.device? id).map Device.reset := Array.getElem?_map
  unfold reset
  rw [device?_syncs, layout_reset, hmap, Option.map_map]
  rfl

/-- An access of the console to a port reaches the device there after a look at
its own. -/
theorem device?_access (hub : Hub) (port : Port) (c : Device.Call) (id : Nat) :
    ((hub.sync (hub.portDevice port)).modify
      (hub.portDevice port) c.apply).device? id
      = (hub.device? id).map fun d => d.acted
          ((Act.access (hub.layout.seenBy id) c).only
            (hub.portDevice port) id) := by
  rw [device?_modify, device?_sync]
  unfold Act.only
  by_cases hid : hub.portDevice port = id
  · simp only [if_pos hid, Option.map_map]
    rfl
  · simp only [if_neg hid]

/-- A change of one device. -/
theorem device?_change (hub : Hub) (target id : Nat) (a : Act) :
    (hub.modify target fun d => a.apply d).device? id
      = (hub.device? id).map fun d => d.acted (a.only target id) := by
  rw [device?_modify]
  unfold Act.only
  by_cases hid : target = id
  · simp only [if_pos hid]
    rfl
  · simp only [if_neg hid]
    cases hub.device? id <;> rfl

-- ======================================================= refused and added

/-- A link within the hub, seen on its layout. -/
theorem layout_link (hub : Hub) (tap port : Nat) (sub : Option Nat) :
    (hub.modify tap fun d => d.link port sub).layout
      = hub.layout.linked tap port sub := by
  have harray : (hub.modify tap fun d => d.link port sub).layout.devices
      = (hub.layout.linked tap port sub).devices :=
        Array.ext_getElem? fun id => by
    unfold Layout.linked
    rw [devices_layout, device?_modify, Array.getElem?_modify, devices_layout]
    by_cases hid : tap = id
    · rw [if_pos hid, if_pos hid]
      cases hub.device? id with
      | none => rfl
      | some d => exact congrArg some (d.outline_link port sub)
    · rw [if_neg hid, if_neg hid]
  exact congrArg (Layout.mk · hub.ports) harray

/-- A change that knows the device is one that looks it up. -/
theorem modify_eq {hub : Hub} {id : Nat} {d : Peripheral}
    (h : hub.device? id = some d) (change : Peripheral → Peripheral) :
    hub.modify id (fun _ => change d) = hub.modify id change := by
  have harray : hub.devices.modify id (fun _ => change d)
      = hub.devices.modify id change :=
    Array.ext_getElem? fun i => by
      rw [Array.getElem?_modify, Array.getElem?_modify]
      by_cases hid : id = i
      · subst hid
        rw [if_pos rfl, if_pos rfl, show hub.devices[id]? = some d from h]
        rfl
      · rw [if_neg hid, if_neg hid]
  unfold modify
  rw [harray]

theorem modify_id (hub : Hub) (id : Nat) :
    hub.modify id (fun d => d) = hub := by
  have harray : hub.devices.modify id (fun d => d) = hub.devices :=
    Array.ext_getElem? fun i => by
    rw [Array.getElem?_modify]
    split
    · exact Option.map_id'
    · rfl
  exact congrArg (Hub.mk · hub.ports hub.version) harray

/-- Chaining a device is refused by the layout, or links it and shows it. -/
theorem attach_eq (hub : Hub) (tap port : Nat) (sub : Option Nat) :
    hub.attach tap port sub
      = match hub.layout.refusal tap port sub with
        | some e => .error e
        | none => .ok ((hub.modify tap fun d => d.link port sub).sync tap) := by
  unfold attach Layout.refusal
  rw [devices_layout, size_layout]
  cases hd : hub.device? tap with
  | none => rfl
  | some d =>
      dsimp only [Option.map_some]
      generalize Option.filter _ sub = barred
      cases barred with
      | some target =>
          by_cases hlt : target < hub.devices.size
          · simp only [if_pos hlt]
          · simp only [if_neg hlt]
      | none =>
          rw [d.chain_eq]
          by_cases hrefused : d.kind = .teamPlayer ∧ TeamPlayer.portCount ≤ port
          · have houtline : d.outline.kind = .teamPlayer
                ∧ TeamPlayer.portCount ≤ port := hrefused
            simp only [if_pos hrefused, if_pos houtline]
            rfl
          · have houtline : ¬(d.outline.kind = .teamPlayer
                ∧ TeamPlayer.portCount ≤ port) :=
              hrefused
            simp only [if_neg hrefused, if_neg houtline]
            rw [← modify_eq hd]
            rfl

/-- A change that is refused for unknown numbers. -/
theorem device?_attempt (hub : Hub) (target id : Nat) (a : Act) :
    (hub.attempt
        (if target < hub.devices.size then
            .ok (hub.modify target fun d => a.apply d)
          else .error (.invalidDevice target))).2.device? id
      = (hub.device? id).map fun d => d.acted (a.only target id) := by
  rw [← device?_change]
  split
  · rfl
  next hsize =>
    show hub.device? id = _
    rw [device?_modify]
    by_cases hid : target = id
    · subst hid
      have hnone : hub.device? target = none :=
        Array.getElem?_eq_none (Nat.not_lt.1 hsize)
      rw [hnone]
      simp
    · rw [if_neg hid]

/-- An attachment, seen from one device: a refused one does nothing. -/
private theorem device?_attach (hub : Hub) (tap port : Nat) (sub : Option Nat)
    (id : Nat) :
    (hub.attempt (hub.attach tap port sub)).2.device? id
      = (hub.device? id).map fun d => d.acted
          (if (hub.layout.refusal tap port sub).isSome then []
            else (Act.link port sub
              ((hub.layout.linked tap port sub).seenBy tap)).only tap id) := by
  rw [attach_eq]
  cases hub.layout.refusal tap port sub with
  | some e =>
      show hub.device? id = (hub.device? id).map fun d => d
      rw [Option.map_id']
  | none =>
      show ((hub.modify tap fun d => d.link port sub).sync tap).device? id
        = (hub.device? id).map fun d => d.acted
            ((Act.link port sub
                ((hub.layout.linked tap port sub).seenBy tap)).only tap id)
      rw [device?_sync, device?_modify, layout_link]
      unfold Act.only
      by_cases hid : tap = id
      · subst hid
        rw [if_pos rfl, if_pos rfl, if_pos rfl, Option.map_map]
        rfl
      · rw [if_neg hid, if_neg hid, if_neg hid]

/-- Putting another device in the place of one is a change of that one. -/
theorem replace_eq (hub : Hub) (id : Nat) (d : Peripheral) :
    hub.replace id d
      = if id < hub.devices.size then .ok (hub.modify id fun _ => d)
        else .error (.invalidDevice id) := by
  have hset : hub.devices.setIfInBounds id d
      = hub.devices.modify id fun _ => d :=
    Array.ext_getElem? fun i => by
      rw [Array.getElem?_setIfInBounds, Array.getElem?_modify]
      by_cases hid : id = i
      · subst hid
        rw [if_pos rfl, if_pos rfl]
        by_cases hlt : id < hub.devices.size
        · rw [if_pos hlt, Array.getElem?_eq_getElem hlt]
          rfl
        · rw [if_neg hlt, Array.getElem?_eq_none (Nat.not_lt.1 hlt)]
          rfl
      · rw [if_neg hid, if_neg hid]
  unfold replace
  rw [hset]
  rfl

private theorem device?_replace (hub : Hub) (target : Nat) (kind : Kind)
    (id : Nat) :
    (hub.attempt (hub.replace target (Device.create (.ofKind kind)))).2.device?
      id
      = (hub.device? id).map fun d =>
        d.acted ((Act.place kind).only target id) := by
  rw [replace_eq]
  exact device?_attempt hub target id (.place kind)

/-- Pressed buttons, seen from one device. -/
private theorem device?_press (hub : Hub) (target id : Nat) (buttons : UInt32) :
    (hub.attempt (hub.updateButtons target buttons)).2.device? id
      = (hub.device? id).map fun d =>
        d.acted ((Act.press buttons).only target id) :=
  device?_attempt hub target id (.press buttons)

private theorem device?_scanline (hub : Hub) (id : Nat) :
    hub.scanline.device? id = (hub.device? id).map fun d =>
      d.acted [.call .scanline] :=
  Array.getElem?_map

private theorem device?_resetDevices (hub : Hub) (id : Nat) :
    hub.resetDevices.device? id = (hub.device? id).map fun d =>
      d.acted [.restart] :=
  Array.getElem?_map

private theorem device?_readRegister (hub : Hub) (index id : Nat) :
    (hub.readRegister index).2.device? id
      = (hub.device? id).map fun d =>
        d.acted (hub.layout.acts id (.readRegister index)) := by
  have hnothing : hub.device? id = (hub.device? id).map fun d => d.acted [] :=
    Option.map_id'.symm
  unfold readRegister Layout.acts
  dsimp only
  cases registers[index]? with
  | none => exact hnothing
  | some r =>
      cases r with
      | data port => exact device?_access hub port .noteRead id
      | version | control _ | transmit _ | receive _ | serialControl _ =>
          exact hnothing

/-- A written register, seen from one device. -/
theorem device?_writeRegister (hub : Hub) (index : Nat) (v : UInt8) (id : Nat) :
    (hub.writeRegister index v).device? id
      = (hub.device? id).map fun d =>
        d.acted (hub.layout.acts id (.writeRegister index v)) := by
  have hnothing : hub.device? id = (hub.device? id).map fun d => d.acted [] :=
    Option.map_id'.symm
  unfold writeRegister Layout.acts
  dsimp only
  cases registers[index]? with
  | none => exact hnothing
  | some r =>
      cases r with
      | data port => exact device?_access hub port (.writeData v) id
      | control port => exact device?_access hub port (.writeControl v) id
      | transmit port => exact device?_change hub _ id (.sendSerial v)
      | serialControl port =>
          exact device?_change hub _ id (.setSerial (v &&& serialControlMask))
      | version | receive _ => exact hnothing

/-- A new device takes the next number, and no other look-up changes. -/
theorem device?_add (hub : Hub) (new : Peripheral) (id : Nat) :
    (hub.add new).2.device? id
      = if id = hub.deviceCount then some new else hub.device? id :=
  Array.getElem?_push

/-- It comes to the devices that are there, of which none has its number. -/
private theorem device?_added (hub : Hub) (new : Peripheral) (id : Nat) :
    (hub.add new).2.device? id
      = (hub.device? id).or
        (if id = hub.deviceCount then some new else none) := by
  rw [device?_add]
  by_cases hid : id = hub.deviceCount
  · have hnone : hub.device? hub.deviceCount = none :=
      Array.getElem?_eq_none (Nat.le_refl _)
    rw [if_pos hid, if_pos hid, hid, hnone]
    rfl
  · rw [if_neg hid, if_neg hid, Option.or_none]

/-- Connecting a device to a port changes no device. -/
private theorem device?_connect (hub : Hub) (port : Port) (target id : Nat) :
    (hub.attempt (hub.connect port target)).2.device? id = hub.device? id := by
  cases hok : hub.connect port target with
  | ok hub' => exact congrArg (·[id]?) (connect_ok hok)
  | error e => rfl

/-- Buttons that are given for a port go to the device there. -/
private theorem updatePort_eq (hub : Hub) (port : Port) (buttons : UInt32) :
    hub.updatePort port buttons
      = (hub.attempt
        (hub.updateButtons (hub.portDevice port) buttons)).2 := by
  unfold updatePort
  cases hub.updateButtons (hub.portDevice port) buttons <;> rfl

/-- What each device is behind an operation: what the acts of the operation make
of it. Only new devices come to it. -/
theorem device?_after (hub : Hub) (op : Operation) (id : Nat) :
    (hub.after op).device? id
      = ((hub.device? id).map fun d => d.acted (hub.layout.acts id op)).or
          (if id = hub.deviceCount then
              op.added.map fun kind => Device.create (.ofKind kind)
            else none) := by
  have hnothing : hub.device? id = (hub.device? id).map fun d => d.acted [] :=
    Option.map_id'.symm
  -- an operation that adds nothing
  have hkept : ∀ {hub' : Hub} {acts : List Act},
      hub'.device? id = (hub.device? id).map (fun d => d.acted acts) →
      hub'.device? id = ((hub.device? id).map fun d => d.acted acts).or
        (if id = hub.deviceCount then none else none) := by
    intro hub' acts h
    rw [ite_self, Option.or_none, h]
  cases op with
  | add kind | connectNew port kind =>
      show _ = ((hub.device? id).map fun d => d.acted []).or _
      rw [← hnothing]
      exact device?_added hub _ id
  | connect port target =>
      exact hkept ((device?_connect hub port target id).trans hnothing)
  | replace target kind => exact hkept (device?_replace hub target kind id)
  | attach tap port sub => exact hkept (device?_attach hub tap port sub id)
  | updateButtons target buttons =>
      exact hkept (device?_press hub target id buttons)
  | updatePort port buttons =>
      have hpress := device?_press hub (hub.portDevice port) id buttons
      rw [← updatePort_eq] at hpress
      exact hkept hpress
  | moveTo target x y =>
      exact hkept (device?_attempt hub target id (.call (.moveTo x y)))
  | scanline => exact hkept (device?_scanline hub id)
  | reset => exact hkept (device?_reset hub id)
  | resetDevices => exact hkept (device?_resetDevices hub id)
  | readData port => exact hkept (device?_access hub port .noteRead id)
  | writeData port v => exact hkept (device?_access hub port (.writeData v) id)
  | readControl port => exact hkept hnothing
  | writeControl port v =>
      exact hkept (device?_access hub port (.writeControl v) id)
  | readRegister index => exact hkept (device?_readRegister hub index id)
  | writeRegister index v => exact hkept (device?_writeRegister hub index v id)

/-- A device that is there stays there. -/
theorem device?_after_some {hub : Hub} {id : Nat} {d : Peripheral}
    (h : hub.device? id = some d) (op : Operation) :
    (hub.after op).device? id = some (d.acted (hub.layout.acts id op)) := by
  rw [device?_after, h]
  rfl

-- ================================================================== events

/-- What happens to a hub: an operation of its manager, a new version, or a call
that its host makes to one of the devices by itself. Links are made by the
manager, which checks them (`Operation.attach`); what a host stores in the
links of a device that it holds in its own hands is not among the calls. -/
inductive Event
  | operation (op : Operation)
  | setVersion (v : UInt8)
  | device (id : Nat) (c : Device.Call)
deriving DecidableEq

def Event.perform (hub : Hub) : Event → Reply × Hub
  | operation op => op.perform hub
  | setVersion v => (.done, { hub with version := v })
  | device id c => (.done, hub.modify id c.apply)

/-- The hub behind an event. -/
def next (hub : Hub) (e : Event) : Hub := (e.perform hub).2

def Event.added : Event → Option Kind
  | operation op => op.added
  | _ => none

end Hub

/-- What an event does to device `id`. -/
def Layout.eventActs (l : Layout) (id : Nat) : Hub.Event → List Act
  | .operation op => l.acts id op
  | .setVersion _ => []
  | .device target c => (Act.call c).only target id

namespace Hub

/-- What each device is behind an event. -/
theorem device?_next (hub : Hub) (e : Event) (id : Nat) :
    (hub.next e).device? id
      = ((hub.device? id).map fun d => d.acted (hub.layout.eventActs id e)).or
          (if id = hub.deviceCount then
              e.added.map fun kind => Device.create (.ofKind kind)
            else none) := by
  cases e with
  | operation op => exact device?_after hub op id
  | setVersion v =>
      have hnothing : hub.device? id
          = (hub.device? id).map fun d => d.acted [] :=
        Option.map_id'.symm
      show hub.device? id = ((hub.device? id).map fun d => d.acted []).or
        (ite _ none none)
      rw [ite_self, Option.or_none, ← hnothing]
  | device target c =>
      show (hub.modify target c.apply).device? id
        = Option.or _ (ite _ none none)
      rw [ite_self, Option.or_none]
      exact device?_change hub target id (.call c)

/-- What holds of each device behind an event: it holds of a new device, and of
what the acts of the event make of the others. -/
theorem forall_device_next {P P' : Nat → Peripheral → Prop} {hub : Hub}
    {e : Event} (hnew : ∀ kind, e.added = some kind →
      P' hub.deviceCount (Device.create (.ofKind kind)))
    (hacted : ∀ id d, hub.device? id = some d → P id d →
      P' id (d.acted (hub.layout.eventActs id e)))
    (h : ∀ id d, hub.device? id = some d → P id d) :
    ∀ id d, (hub.next e).device? id = some d → P' id d := by
  intro id d hd
  rw [device?_next, Option.or_eq_some_iff] at hd
  rcases hd with hold | ⟨-, hadded⟩
  · obtain ⟨old, hdevice, rfl⟩ := Option.map_eq_some_iff.1 hold
    exact hacted id old hdevice (h id old hdevice)
  · split at hadded
    next hid =>
      obtain ⟨kind, hkind, rfl⟩ := Option.map_eq_some_iff.1 hadded
      exact hid ▸ hnew kind hkind
    next => cases hadded

end Hub

end ConsoleBoard.Controller
