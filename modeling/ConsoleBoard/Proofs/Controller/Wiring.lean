/-
The wiring.

Ports and multitaps name devices by number, and the console reads and writes
through those numbers without another look at whether a device is there. That
is safe as long as every stored number is smaller than the number of devices
(`Hub.Wired`). A number is stored only by a call that has checked it or has
just made the device, no device goes away, and exchanging one moves no other;
so what an event stores in a device can be read off its acts
(`mem_chained_acted`), and wiring that is sound stays sound.

The accesses of the console are written a second time here with every index
looked up (`sync?`, `readData?` and so on): in sound wiring no look-up fails,
and the answer is the one that the console gets.
-/
import ConsoleBoard.Proofs.Controller.Effect

namespace ConsoleBoard.Controller

open Device (Act)

-- =============================================================== the links

namespace Device

/-- A device that is new has no links. -/
theorem not_mem_chained_create (kind : Kind) (sub : Nat) :
    some sub ∉ (Device.create (Model.ofKind kind) : Peripheral).chained := by
  have hnone : ∀ link ∈ (Device.create
      (Model.ofKind kind) : Peripheral).chained, link = none := by
    cases kind <;> decide
  exact fun h => nomatch hnone _ h

/-- A look at the chained devices leaves the chain. -/
theorem chained_see (d : Peripheral) (states : List (Option Chained)) :
    (d.see states).chained = d.chained :=
      congrArg (·.links) (outline_see d states)

theorem chained_link (d : Peripheral) (port : Nat) (sub : Option Nat) :
    (d.link port sub).chained = d.chained.set port sub :=
  congrArg (·.links) (outline_link d port sub)

private theorem chained_call (c : Call) (d : Peripheral) :
    (c.apply d).chained = d.chained :=
  congrArg (·.links) (outline_call c d)

/-- A link is there before an act, or the act makes it. -/
theorem mem_chained_act {d : Peripheral} {a : Act} {sub : Nat}
    (h : some sub ∈ (a.apply d).chained) :
    some sub ∈ d.chained ∨ ∃ port states, a = .link port (some sub) states := by
  cases a with
  | place kind => exact absurd h (not_mem_chained_create kind sub)
  | link port linked states =>
      have hset : some sub ∈ d.chained.set port linked := by
        rw [← chained_link, ← chained_see _ states]
        exact h
      rcases List.mem_or_eq_of_mem_set hset with hold | rfl
      · exact .inl hold
      · exact .inr ⟨port, states, rfl⟩
  | see states => exact .inl (chained_see d states ▸ h)
  | access states c =>
      exact .inl (chained_see d states ▸ chained_call c (d.see states) ▸ h)
  | press buttons => exact .inl (chained_call (.update _) d ▸ h)
  | call c => exact .inl (chained_call c d ▸ h)
  | sendSerial v | setSerial v | restart => exact .inl h

/-- What is chained behind acts was chained before, or one of them links it. -/
theorem mem_chained_acted {d : Peripheral} {acts : List Act} {sub : Nat}
    (h : some sub ∈ (d.acted acts).chained) :
    some sub ∈ d.chained ∨ ∃ port states, Act.link port (some sub) states
      ∈ acts := by
  induction acts generalizing d with
  | nil => exact .inl h
  | cons a rest ih =>
      rcases ih h with hold | ⟨port, states, hmem⟩
      · rcases mem_chained_act hold with hbefore | ⟨port, states, rfl⟩
        · exact .inl hbefore
        · exact .inr ⟨port, states, List.mem_cons_self⟩
      · exact .inr ⟨port, states, List.mem_cons_of_mem a hmem⟩

end Device

/-- The only event that links is an accepted one that says so. -/
theorem Layout.link_mem_eventActs {l : Layout} {id port : Nat}
    {sub : Option Nat} {states : List (Option Chained)} {e : Hub.Event}
    (h : Act.link port sub states ∈ l.eventActs id e) :
    e = .operation (.attach id port sub) ∧ l.refusal id port sub = none := by
  have honly : ∀ {b : Act} {target : Nat}, Act.link port sub states
      ∈ b.only target id →
      target = id ∧ b = .link port sub states := by
    intro b target hmem
    unfold Act.only at hmem
    split at hmem
    next htarget => exact ⟨htarget, (List.mem_singleton.1 hmem).symm⟩
    next => cases hmem
  cases e with
  | setVersion v => cases h
  | device target c => cases (honly h).2
  | operation op =>
      cases op with
      | attach tap vport linked =>
          have hacts : Act.link port sub states ∈
              if (l.refusal tap vport linked).isSome then []
              else (Act.link vport linked
                ((l.linked tap vport linked).seenBy tap)).only tap id := h
          split at hacts
          next => cases hacts
          next hfree =>
            obtain ⟨rfl, hact⟩ := honly hacts
            cases hact
            exact ⟨rfl, Option.not_isSome_iff_eq_none.1 hfree⟩
      | replace target kind | updateButtons target buttons
      | updatePort target buttons | moveTo target x y | readData target
      | writeData target v | writeControl target v =>
          cases (honly h).2
      | scanline | resetDevices => cases List.mem_singleton.1 h
      | reset =>
          rcases List.mem_cons.1 h with hreset | hsee
          · cases hreset
          · obtain ⟨target, -, hact⟩ := List.mem_flatMap.1 hsee
            cases (honly hact).2
      | readRegister index | writeRegister index v =>
          simp only [eventActs, acts] at h
          split at h <;> first | cases (honly h).2 | cases h
      | add kind | connect target n | connectNew target kind
      | readControl target => cases h

namespace Hub

/-- The numbers of the devices behind an event. -/
theorem lt_deviceCount_next (hub : Hub) (e : Event) (id : Nat) :
    id < (hub.next e).deviceCount ↔
      id < hub.deviceCount ∨ (id = hub.deviceCount ∧ e.added.isSome) := by
  rw [lt_deviceCount_iff, lt_deviceCount_iff, device?_next, Option.isSome_or,
    Option.isSome_map, Bool.or_eq_true]
  split
  next hid => simp [hid]
  next hid => simp [hid]

/-- No device goes away. -/
theorem deviceCount_le_next (hub : Hub) (e : Event) :
    hub.deviceCount ≤ (hub.next e).deviceCount :=
  Nat.le_of_not_lt fun hlt =>
    Nat.lt_irrefl _ ((lt_deviceCount_next hub e _).2 (.inl hlt))

/-- What is linked is another device that is there. -/
theorem linked_of_refusal {hub : Hub} {tap port sub : Nat}
    (h : hub.layout.refusal tap port (some sub) = none) :
    sub < hub.deviceCount ∧ sub ≠ tap := by
  unfold Layout.refusal at h
  split at h
  next => cases h
  next =>
    split at h
    next => cases h
    next hfree =>
      have htest := Option.filter_eq_none_iff.1 hfree sub rfl
      simp only [Bool.or_eq_true, decide_eq_true_eq, beq_iff_eq, not_or,
        Nat.not_le, size_layout] at htest
      exact htest

/-- Every number that a hub keeps is a device's, and no device is linked to
itself. -/
structure Wired (hub : Hub) : Prop where
  ports : ∀ port, hub.portDevice port < hub.deviceCount
  links : ∀ id d sub, hub.device? id = some d → some sub ∈ d.chained →
    sub < hub.deviceCount ∧ sub ≠ id

/-- Nothing is wired on the empty hub. -/
theorem wired_empty : Wired empty where
  ports := by intro port; cases port <;> decide
  links := by
    intro id d sub hd hsub
    obtain rfl := device?_empty hd
    exact absurd hsub (Device.not_mem_chained_create .none sub)

/-- An event keeps the hub wired. -/
theorem Wired.next {hub : Hub} (h : hub.Wired) (e : Event) :
    (hub.next e).Wired where
  ports := by
    intro port
    have hstays : hub.portDevice port < (hub.next e).deviceCount :=
      Nat.lt_of_lt_of_le (h.ports port) (deviceCount_le_next hub e)
    cases e with
    | operation op =>
        have hlead : (hub.next (.operation op)).portDevice port
            = op.leads hub port :=
          (frame_after hub op).1 port
        rw [hlead]
        cases op with
        | connect p id =>
            show ite (p = port ∧ id < hub.devices.size) _ _ < _
            split
            next hid =>
              exact Nat.lt_of_lt_of_le hid.2 (deviceCount_le_next hub _)
            next => exact hstays
        | connectNew p kind =>
            show ite (p = port) _ _ < _
            split
            next => exact (lt_deviceCount_next hub _ _).2 (.inr ⟨rfl, rfl⟩)
            next => exact hstays
        | _ => exact hstays
    | setVersion v | device id c => exact hstays
  links := by
    have hstays := deviceCount_le_next hub e
    have hlinks : ∀ id d, (hub.next e).device? id = some d →
        ∀ sub, some sub ∈ d.chained →
        sub < (hub.next e).deviceCount ∧ sub ≠ id := by
      refine forall_device_next
        (fun kind _ sub hsub =>
          absurd hsub (Device.not_mem_chained_create kind sub)) ?_
        fun id d hd sub => h.links id d sub hd
      intro id d _ hlinks sub hsub
      -- a link was there before, or an accepted operation has just made it
      rcases Device.mem_chained_acted hsub with hold | ⟨port, states, hmem⟩
      · obtain ⟨hlt, hne⟩ := hlinks sub hold
        exact ⟨Nat.lt_of_lt_of_le hlt hstays, hne⟩
      · obtain ⟨rfl, hfree⟩ := Layout.link_mem_eventActs hmem
        obtain ⟨hlt, hne⟩ := linked_of_refusal hfree
        exact ⟨Nat.lt_of_lt_of_le hlt hstays, hne⟩
    exact fun id d sub hd => hlinks id d hd sub

/-- Events keep the hub wired. -/
theorem wired_events {hub : Hub} (h : hub.Wired) (events : List Event) :
    (events.foldl next hub).Wired := by
  induction events generalizing hub with
  | nil => exact h
  | cons e rest ih => exact ih (h.next e)

-- =================================================== every index looked up

/-- Change a device that must be there. -/
def modify? (hub : Hub) (id : Nat) (change : Peripheral → Peripheral) :
    Option Hub :=
  if id < hub.devices.size then some (hub.modify id change) else none

/-- Show a multitap what is linked to `count` of its virtual ports, from `port`
on, with the device and the link looked up for each. -/
def show? (hub : Hub) (id port : Nat) : (count : Nat) → Option Hub
  | 0 => some hub
  | count + 1 => do
    let d ← hub.device? id
    let sub ← d.chained[port]?
    let hub ← hub.modify? id fun d => d.observe port (sub.bind hub.chainedState)
    hub.show? id (port + 1) count

def sync? (hub : Hub) (id : Nat) : Option Hub :=
  match hub.device? id with
  | none => some hub
  | some d => do
    if d.chained.length = 0 then return hub
    let hub ← hub.show? id 0 d.chained.length
    hub.modify? id Device.refresh

def readData? (hub : Hub) (port : Port) : Option (UInt8 × Hub) := do
  let id := hub.portDevice port
  let hub ← hub.sync? id
  let hub ← hub.modify? id Device.noteRead
  let d ← hub.device? id
  return (d.read, hub)

def writeData? (hub : Hub) (port : Port) (v : UInt8) : Option Hub := do
  let id := hub.portDevice port
  let hub ← hub.sync? id
  hub.modify? id (·.writeData v)

def portField? (hub : Hub) (port : Port) (field : Core → UInt8) :
    Option UInt8 := do
  let d ← hub.device? (hub.portDevice port)
  return field d.core

def writeControl? (hub : Hub) (port : Port) (v : UInt8) : Option Hub := do
  let id := hub.portDevice port
  let hub ← hub.sync? id
  hub.modify? id (·.writeControl v)

/-- The register of an index, if there is one, with the port looked up. -/
def register? (index : Nat) : Option (Option Register) :=
  if index = 0 then some (some .version)
  else if index ≤ 3 then do return some (.data (← Port.all[index - 1]?))
  else if index ≤ 6 then do return some (.control (← Port.all[index - 4]?))
  else if index ≤ 15 then do
    let port ← Port.all[(index - 7) / 3]?
    match (index - 7) % 3 with
    | 0 => return some (.transmit port)
    | 1 => return some (.receive port)
    | _ => return some (.serialControl port)
  else return none

def readRegister? (hub : Hub) (index : Nat) : Option (UInt8 × Hub) := do
  match ← register? index with
  | some .version => return (hub.version, hub)
  | some (.data port) => hub.readData? port
  | some (.control port) => return (← hub.portField? port (·.control), hub)
  | some (.transmit port) => return (← hub.portField? port (·.serialTx), hub)
  | some (.receive port) => return (← hub.portField? port fun _ => 0xFF, hub)
  | some (.serialControl port) =>
      return (← hub.portField? port (·.serialControl), hub)
  | none => return (0xFF, hub)

def writeRegister? (hub : Hub) (index : Nat) (v : UInt8) : Option Hub := do
  match ← register? index with
  | some .version => return hub
  | some (.data port) => hub.writeData? port v
  | some (.control port) => hub.writeControl? port v
  | some (.transmit port) => hub.modify? (hub.portDevice port) (·.setSerialTx v)
  | some (.receive port) => hub.modify? (hub.portDevice port) id
  | some (.serialControl port) =>
    hub.modify? (hub.portDevice port)
      (·.setSerialControl (v &&& serialControlMask))
  | none => return hub

/-- A checked change of a device that is there is the plain one. -/
private theorem modify?_eq {hub : Hub} {id : Nat} (h : id < hub.deviceCount)
    (change : Peripheral → Peripheral) :
    hub.modify? id change = some (hub.modify id change) :=
  if_pos h

/-- Two changes of one device are one change. -/
private theorem modify_modify (hub : Hub) (id : Nat)
    (f g : Peripheral → Peripheral) :
    (hub.modify id f).modify id g = hub.modify id fun d => g (f d) := by
  have harray : (hub.devices.modify id f).modify id g
      = hub.devices.modify id fun d => g (f d) := Array.ext_getElem? fun i => by
    simp only [Array.getElem?_modify]
    split
    · exact Option.map_map g f _
    · rfl
  exact congrArg (Hub.mk · hub.ports hub.version) harray

/-- What is shown to a device leaves all outlines alone, also its own. -/
theorem chainedState_observe (hub : Hub) (id port : Nat)
    (state : Option Chained) :
    (hub.modify id fun d => d.observe port state).chainedState
      = hub.chainedState := by
  rw [← chained?_layout, ← chained?_layout]
  refine congrArg Layout.chained? (layout_ext (fun _ => rfl) fun i => ?_)
  rw [device?_modify]
  split
  · cases hub.device? i with
    | none => rfl
    | some d => exact congrArg some (d.outline_observe port state)
  · rfl

/-- Looked up one by one, the links are those that the device had before any of
them was shown to it. -/
theorem show?_eq {hub : Hub} {id port : Nat} {d : Peripheral}
    (hd : hub.device? id = some d) {links : List (Option Nat)}
    (hlinks : d.chained.drop port = links) :
    hub.show? id port links.length
      = some (hub.modify id fun d =>
          observeFrom d port
            (links.map fun sub => sub.bind hub.chainedState)) := by
  -- over the links left to look up; showing one of them changes no other
  induction links generalizing hub port d with
  | nil => exact congrArg some (modify_id hub id).symm
  | cons sub rest ih =>
      have hsub : d.chained[port]? = some sub := by
        rw [← Nat.add_zero port, ← List.getElem?_drop, hlinks]
        rfl
      have hrest : (Device.observe d port
          (sub.bind hub.chainedState)).chained.drop (port + 1)
          = rest := by
        rw [show (Device.observe d port (sub.bind hub.chainedState)).chained
          = d.chained from
          congrArg (·.links) (d.outline_observe port _),
          ← List.drop_drop, hlinks]
        rfl
      have hshown : (hub.modify id fun d =>
          d.observe port (sub.bind hub.chainedState)).device? id
          = some (d.observe port (sub.bind hub.chainedState)) := by
        rw [device?_modify, if_pos rfl, hd]
        rfl
      have hid : id < hub.deviceCount :=
        lt_deviceCount_iff.2 (Option.isSome_of_mem hd)
      show (do
        let d ← hub.device? id
        let sub ← d.chained[port]?
        let hub ← hub.modify? id fun d =>
          d.observe port (sub.bind hub.chainedState)
        hub.show? id (port + 1) rest.length) = _
      simp only [hd, hsub, modify?_eq hid, Option.bind_eq_bind,
        Option.bind_some]
      rw [ih hshown hrest, modify_modify, chainedState_observe]
      rfl

theorem deviceCount_modify (hub : Hub) (id : Nat)
    (change : Peripheral → Peripheral) :
    (hub.modify id change).deviceCount = hub.deviceCount := Array.size_modify

/-- A checked synchronization finds what it looks up. -/
private theorem sync?_eq (hub : Hub) (id : Nat) :
    hub.sync? id = some (hub.sync id) := by
  unfold sync? sync
  cases hd : hub.device? id with
  | none => rfl
  | some d =>
      dsimp only
      by_cases hempty : d.chained = []
      · rw [hempty]
        rfl
      · have hid : id < hub.deviceCount :=
          lt_deviceCount_iff.2 (Option.isSome_of_mem hd)
        rw [if_neg (mt List.length_eq_zero_iff.1 hempty),
          if_neg (mt List.isEmpty_iff.1 hempty),
          show?_eq hd (List.drop_zero ..)]
        exact (modify?_eq ((deviceCount_modify hub id _).symm ▸ hid) _).trans
          (congrArg some (modify_modify hub id _ _))

theorem deviceCount_sync (hub : Hub) (id : Nat) :
    (hub.sync id).deviceCount = hub.deviceCount := by
  unfold sync
  split
  · rfl
  · split
    · rfl
    · exact deviceCount_modify hub id _

/-- The index arithmetic finds the register that the list has there. -/
theorem register?_eq (index : Nat) :
    register? index = some registers[index]? := by
  by_cases hindex : index < registerCount
  · revert index
    decide
  · have hlarge : 16 ≤ index := Nat.not_lt.1 hindex
    have hnone : registers[index]? = none := List.getElem?_eq_none hlarge
    unfold register?
    rw [hnone, if_neg (by omega), if_neg (by omega), if_neg (by omega),
      if_neg (by omega)]
    rfl

namespace Wired

variable {hub : Hub} (h : hub.Wired)

include h

/-- A device that has been synchronized is still found. -/
private theorem sync_modify? (port : Port) (change : Peripheral → Peripheral) :
    (do
      let hub' ← hub.sync? (hub.portDevice port)
      hub'.modify? (hub.portDevice port) change)
      = some ((hub.sync (hub.portDevice port)).modify
        (hub.portDevice port) change) := by
  rw [sync?_eq]
  exact modify?_eq (deviceCount_sync hub _ ▸ h.ports port) change

/-- A read shows the device that the port leads to. -/
theorem read_eq (port : Port) :
    ∃ d, (hub.readData port).2.device? (hub.portDevice port) = some d
      ∧ hub.readData port = (d.read, (hub.readData port).2) := by
  have hid : hub.portDevice port < (hub.readData port).2.deviceCount := by
    show _ < Hub.deviceCount ((hub.sync _).modify _ _)
    rw [deviceCount_modify, deviceCount_sync]
    exact h.ports port
  obtain ⟨d, hd⟩ := Option.isSome_iff_exists.1 (lt_deviceCount_iff.1 hid)
  have hread : (hub.readData port).1 = d.read := by
    show (((hub.readData port).2.device? (hub.portDevice port)).map
      Device.read).getD 0xFF = _
    rw [hd]
    rfl
  exact ⟨d, hd, Prod.ext hread rfl⟩

/-- A checked read finds what it looks up. -/
theorem readData? (port : Port) :
    hub.readData? port = some (hub.readData port) := by
  unfold Hub.readData?
  obtain ⟨d, hd, hread⟩ := h.read_eq port
  have hsync := h.sync_modify? port Device.noteRead
  simp only [sync?_eq, Option.bind_eq_bind, Option.bind_some] at hsync ⊢
  rw [hsync, hread]
  dsimp only [Option.bind_some]
  rw [show ((hub.sync (hub.portDevice port)).modify
      (hub.portDevice port) Device.noteRead).device?
    (hub.portDevice port) = some d from hd]
  rfl

theorem writeData? (port : Port) (v : UInt8) :
    hub.writeData? port v = some (hub.writeData port v) := h.sync_modify? port _

theorem writeControl? (port : Port) (v : UInt8) :
    hub.writeControl? port v = some (hub.writeControl port v) :=
      h.sync_modify? port _

theorem portField? (port : Port) (field : Core → UInt8) :
    hub.portField? port field = some (hub.portField port field) := by
  obtain ⟨d, hd⟩ :=
    Option.isSome_iff_exists.1 (lt_deviceCount_iff.1 (h.ports port))
  unfold Hub.portField? Hub.portField
  rw [hd]
  rfl

theorem readRegister? (index : Nat) :
    hub.readRegister? index = some (hub.readRegister index) := by
  unfold Hub.readRegister? Hub.readRegister
  rw [register?_eq]
  dsimp only [Option.bind_eq_bind, Option.bind_some]
  cases registers[index]? with
  | none => rfl
  | some r =>
      cases r with
      | version => rfl
      | data port => exact h.readData? port
      | control port | transmit port | serialControl port =>
          dsimp only
          rw [h.portField?]
          rfl
      | receive port =>
          have hopen : hub.portField port (fun _ => 0xFF) = 0xFF := by
            unfold Hub.portField
            cases hub.device? (hub.portDevice port) <;> rfl
          dsimp only
          rw [h.portField?, hopen]
          rfl

theorem writeRegister? (index : Nat) (v : UInt8) :
    hub.writeRegister? index v = some (hub.writeRegister index v) := by
  unfold Hub.writeRegister? Hub.writeRegister
  rw [register?_eq]
  dsimp only [Option.bind_eq_bind, Option.bind_some]
  cases registers[index]? with
  | none => rfl
  | some r =>
      cases r with
      | version => rfl
      | data port => exact h.writeData? port v
      | control port => exact h.writeControl? port v
      | transmit port | serialControl port => exact modify?_eq (h.ports port) _
      | receive port =>
          exact (modify?_eq (h.ports port) _).trans
            (congrArg some (modify_id hub _))

end Wired

/-- In every state that events can lead to, ports and links name devices that
are there, nothing is linked to itself, and what was there stays there. So the
accesses of the console find everything that they look up by number. -/
theorem events_wired (events : List Event) :
    let hub := events.foldl next empty
    (∀ port, hub.portDevice port < hub.deviceCount)
      ∧ (∀ id d sub, hub.device? id = some d → some sub ∈ d.chained →
          sub < hub.deviceCount ∧ sub ≠ id)
      ∧ (∀ e, hub.deviceCount ≤ (hub.next e).deviceCount)
      ∧ (∀ id, hub.sync? id = some (hub.sync id))
      ∧ (∀ port, hub.readData? port = some (hub.readData port)
          ∧ hub.portField? port Core.control = some (hub.readControl port)
          ∧ ∀ v, hub.writeData? port v = some (hub.writeData port v)
            ∧ hub.writeControl? port v = some (hub.writeControl port v))
      ∧ ∀ index, hub.readRegister? index = some (hub.readRegister index)
          ∧ ∀ v, hub.writeRegister? index v
            = some (hub.writeRegister index v) := by
  intro hub
  have h : hub.Wired := wired_events wired_empty events
  exact ⟨h.ports, h.links, deviceCount_le_next hub, sync?_eq hub,
    fun port => ⟨h.readData? port, h.portField? port _,
      fun v => ⟨h.writeData? port v, h.writeControl? port v⟩⟩,
    fun index => ⟨h.readRegister? index, h.writeRegister? index⟩⟩

/-- Two multitaps linked to each other, of which one is then exchanged for a
pad: the link of the other to it stays, and leads to the pad. -/
theorem events_wired_cycle :
    let events : List Event :=
      [.connectNew .one .teamPlayer, .add .teamPlayer, .attach 3 0 (some 4),
        .attach 4 0 (some 3),
        .replace 3 .sixButton].map .operation
    let hub := events.foldl next empty
    (∃ d, hub.device? 4 = some d ∧ some 3 ∈ d.chained
      ∧ 3 < hub.deviceCount ∧ 3 ≠ 4)
      ∧ hub.chainedState 3 = some ⟨.sixButton, Button.released⟩
      ∧ hub.sync? 4 = some (hub.sync 4)
      ∧ hub.readData? .one = some (hub.readData .one) := by
  intro events hub
  have hlinked : (hub.device? 4).any (fun d => some 3 ∈ d.chained) = true := by
    decide +kernel
  obtain ⟨d, hd, hsub⟩ := (Option.any_eq_true _ _).1 hlinked
  have hmem : some 3 ∈ d.chained := of_decide_eq_true hsub
  obtain ⟨-, hlinks, -, hsync, hports, -⟩ := events_wired events
  exact ⟨⟨d, hd, hmem, hlinks 4 d 3 hd hmem⟩, by
      decide +kernel, hsync 4, (hports .one).1⟩

end Hub

end ConsoleBoard.Controller
