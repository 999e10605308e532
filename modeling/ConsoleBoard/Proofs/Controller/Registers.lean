/-
The register block.

The registers that hold something (`Slot`) are kept on the device that is on
the port. As long as three different devices stay on the three ports, only a
write to the register itself reaches such a slot (`slot_after`), so it reads
as the last byte written to it. And of another port's device an access sees
nothing but the outline, which no register shows: hubs that agree on the
device of a port and on the outlines of all (`Agree`) read the same on this
port ever after.

# One slot

What an access does to a slot is one function of the call (`Slot.after`), and
the acts of an operation hold at most one call that is anything to the slot of
a port (`get_acts`). A run of operations then reads as its last write
(`slot_run`), folded over the list.

# Two hubs

A write on one port is an event for the device on it and nothing to the others
(`agree_write`). From there on both hubs go through the same operations, and
the pairing is kept by each of them (`Paired.after`).
-/
import ConsoleBoard.Proofs.Controller.Parallel
import Mathlib.Data.List.Induction

namespace ConsoleBoard.Controller

namespace Hub

-- =========================================================== the registers

namespace Register

/-- The place of a register in the block: the version, then one data and one
control register for each port, then three serial registers for each. -/
def index : Register → Nat
  | version => 0
  | data port => 1 + port.index
  | control port => 4 + port.index
  | transmit port => 7 + 3 * port.index
  | receive port => 8 + 3 * port.index
  | serialControl port => 9 + 3 * port.index

/-- The port that a register belongs to. -/
def port? : Register → Option Port
  | version => none
  | data port | control port | transmit port | receive port
  | serialControl port => some port

end Register

private theorem registers_index (r : Register) :
    registers[r.index]? = some r := by
  cases r with
  | version => rfl
  | data port | control port | transmit port | receive port
  | serialControl port =>
      cases port <;> rfl

/-- No register stands twice in the register file. -/
theorem index_of_registers {i : Nat} {r : Register}
    (h : registers[i]? = some r) :
    i = r.index := by
  have hall : ∀ i : Fin 16, (registers[i.val]?).all (·.index == i.val)
      = true := by decide
  obtain ⟨hlt, -⟩ := List.getElem?_eq_some_iff.1 h
  have hplace := hall ⟨i, hlt⟩
  rw [h] at hplace
  exact (beq_iff_eq.1 hplace).symm

/-- A byte that a device keeps for the console. -/
inductive Slot
  | control | transmit | serialControl
deriving DecidableEq

namespace Slot

def register (port : Port) : Slot → Register
  | control => .control port
  | transmit => .transmit port
  | serialControl => .serialControl port

def get (core : Core) : Slot → UInt8
  | control => core.control
  | transmit => core.serialTx
  | serialControl => core.serialControl

/-- What a call to the device leaves of a byte. -/
def after : Slot → Device.Call → UInt8 → UInt8
  | control, .writeControl v, _ => v
  | control, .reset, _ | serialControl, .reset, _ => 0x00
  | transmit, .reset, _ => 0xFF
  | _, _, v => v

/-- What is kept of a byte written there. -/
def keeps (v : UInt8) : Slot → UInt8
  | control | transmit => v
  | serialControl => v &&& 0xF8

/-- A read of the data changes no slot. -/
private theorem after_noteRead (slot : Slot) (v : UInt8) :
    slot.after .noteRead v = v := by
  cases slot <;> rfl

/-- Nor does a write of the data: no slot is behind a data register. -/
private theorem after_writeData (slot : Slot) (v w : UInt8) :
    slot.after (.writeData w) v = v := by
  cases slot <;> rfl

private theorem register_ne_data (slot : Slot) (port p : Port) :
    slot.register port ≠ .data p := by
  cases slot <;> exact nofun

end Slot

/-- Two slots on two ports are one register only if both are the same. -/
theorem Slot.register_inj {slot slot' : Slot} {port port' : Port} :
    slot.register port = slot'.register port' ↔ slot = slot'
      ∧ port = port' := by
  cases slot <;> cases slot' <;> simp [Slot.register]

/-- What the console reads in a register. -/
def shows (hub : Hub) (r : Register) : UInt8 := (hub.readRegister r.index).1

private theorem shows_slot (hub : Hub) (slot : Slot) (port : Port) :
    hub.shows (slot.register port) = hub.portField port slot.get := by
  unfold shows readRegister
  rw [registers_index]
  cases slot <;> rfl

private theorem shows_receive (hub : Hub) (port : Port) :
    hub.shows (.receive port) = 0xFF := by
  unfold shows readRegister
  rw [registers_index]

/-- The registers of a port show its slots and its lines. -/
theorem shows_eq {hub hub' : Hub} {r : Register} {port : Port}
    (hr : r.port? = some port) (hslots : ∀ slot : Slot,
      hub.portField port slot.get = hub'.portField port slot.get)
    (hdata : (hub.readData port).1 = (hub'.readData port).1) :
    hub.shows r = hub'.shows r := by
  have hslot : ∀ slot : Slot, hub.shows (slot.register port)
      = hub'.shows (slot.register port) := by
    intro slot
    rw [shows_slot, shows_slot, hslots]
  cases r with
  | version => cases hr
  | data p =>
      cases hr
      unfold shows readRegister
      rw [registers_index]
      exact hdata
  | control p =>
      cases hr
      exact hslot .control
  | transmit p =>
      cases hr
      exact hslot .transmit
  | serialControl p =>
      cases hr
      exact hslot .serialControl
  | receive p => rw [shows_receive, shows_receive]

/-- The byte that an operation writes to a register. -/
def Operation.writes (r : Register) : Operation → Option UInt8
  | writeRegister index v => if index = r.index then some v else none
  | writeData port v => if r = .data port then some v else none
  | writeControl port v => if r = .control port then some v else none
  | _ => none

/-- The last byte written to a register. -/
def lastWritten (r : Register) (ops : List Operation) : Option UInt8 :=
  (ops.filterMap (·.writes r)).getLast?

-- =============================================================== the ports

/-- The operation exchanges devices, or resets them. -/
def Operation.Rewires : Operation → Prop
  | replace _ _ | connect _ _ | connectNew _ _ | reset => True
  | _ => False

/-- Three different devices are on the ports. -/
structure Distinct (hub : Hub) : Prop where
  present : ∀ port, ∃ d, hub.device? (hub.portDevice port) = some d
  different : ∀ {port port'}, hub.portDevice port = hub.portDevice port' →
      port = port'

private theorem portDevice_of_not_rewires {op : Operation} (h : ¬op.Rewires)
    (hub : Hub) (port : Port) :
    (hub.after op).portDevice port = hub.portDevice port := by
  refine portDevice_after (fun hconnects => ?_) hub
  cases op with
  | connect p id | connectNew p kind => exact h trivial
  | _ => exact hconnects

/-- Distinct ports stay distinct without a connection. -/
theorem Distinct.after {hub : Hub} (h : hub.Distinct) {op : Operation}
    (hop : ¬op.Rewires) :
    (hub.after op).Distinct where
  present port := by
    obtain ⟨d, hd⟩ := h.present port
    rw [portDevice_of_not_rewires hop]
    exact ⟨_, device?_after_some hd op⟩
  different := by
    intro port port' heq
    rw [portDevice_of_not_rewires hop, portDevice_of_not_rewires hop] at heq
    exact h.different heq

-- =============================================================== the slots

section Slots

variable (slot : Slot) (d : Peripheral)

private theorem get_see (states : List (Option Chained)) :
    slot.get (d.see states).core = slot.get d.core := by
  unfold Device.see
  split
  · rfl
  · have hcore := d.core_observeFrom 0 states
    have hrefresh : slot.get (Hub.observeFrom d 0 states).refresh.core
        = slot.get (Hub.observeFrom d 0 states).core := by
      cases slot <;> rfl
    rw [hrefresh, hcore]

/-- A call changes the slot as the slot says. -/
private theorem get_call (c : Device.Call) :
    slot.get (c.apply d).core = slot.after c (slot.get d.core) := by
  cases c with
  | scanline =>
      have hsame : slot.get d.scanline.core = slot.get d.core := by
        unfold Device.scanline
        split <;> cases slot <;> rfl
      rw [show Device.Call.scanline.apply d = d.scanline from rfl, hsame]
      cases slot <;> rfl
  | noteRead =>
      have hsame : slot.get d.noteRead.core = slot.get d.core := by
        unfold Device.noteRead
        split <;> cases slot <;> rfl
      rw [show Device.Call.noteRead.apply d = d.noteRead from rfl, hsame]
      cases slot <;> rfl
  | writeControl v | writeData v | update buttons | moveTo x y | setPin58 v
  | refresh | reset =>
      cases slot <;> rfl

private theorem get_access (states : List (Option Chained)) (c : Device.Call) :
    slot.get (Device.Act.apply d (.access states c)).core
      = slot.after c (slot.get d.core) := by
  rw [← get_see slot d states]
  exact get_call slot _ c

private theorem get_link (port : Nat) (sub : Option Nat)
    (states : List (Option Chained)) :
    slot.get (Device.Act.apply d (.link port sub states)).core
      = slot.get d.core := by
  have hcore : (d.link port sub).core = d.core := d.core_chain port sub
  rw [← hcore]
  exact get_see slot _ states

/-- A write to the control register reaches its slot alone. -/
private theorem get_writeControl (states : List (Option Chained)) (v : UInt8) :
    slot.get (Device.Act.apply d (.access states (.writeControl v))).core
      = if slot = .control then Slot.control.keeps v else slot.get d.core := by
  rw [get_access]
  cases slot <;> rfl

/-- An act on the device of a port passes by the others. -/
theorem get_only {hub : Hub} (h : hub.Distinct) (p port : Port)
    (a : Device.Act) :
    slot.get (d.acted (a.only (hub.portDevice p) (hub.portDevice port))).core
      = if p = port then slot.get (a.apply d).core else slot.get d.core := by
  unfold Device.Act.only
  by_cases hp : p = port
  · rw [if_pos (congrArg hub.portDevice hp), if_pos hp]
    rfl
  · rw [if_neg fun heq => hp (h.different heq), if_neg hp]
    rfl

/-- An act that leaves a slot alone, whomever it is for. -/
theorem get_only_of_eq {a : Device.Act}
    (h : slot.get (a.apply d).core = slot.get d.core) (target id : Nat) :
    slot.get (d.acted (a.only target id)).core = slot.get d.core :=
  Device.acted_only (P := fun d' => slot.get d'.core = slot.get d.core) h
    rfl target id

private theorem get_only_access {c : Device.Call} (hc : ∀ v, slot.after c v = v)
    (states : List (Option Chained)) (target id : Nat) :
    slot.get (d.acted ((Device.Act.access states c).only target id)).core
      = slot.get d.core :=
  get_only_of_eq slot d ((get_access slot d states c).trans (hc _)) target id

/-- An act that writes to one slot, on one port. -/
theorem get_only_write {hub : Hub} (h : hub.Distinct) (own : Slot)
    {a : Device.Act} {v : UInt8} (ha : slot.get (a.apply d).core
      = if slot = own then own.keeps v else slot.get d.core)
    (p port : Port) :
    slot.get (d.acted (a.only (hub.portDevice p) (hub.portDevice port))).core
      = ((if slot.register port = own.register p then some v else none).map
        slot.keeps).getD
          (slot.get d.core) := by
  rw [get_only slot d h, ha]
  simp only [Slot.register_inj]
  by_cases hp : p = port
  · by_cases hown : slot = own
    · rw [if_pos hp, if_pos hown, if_pos ⟨hown, hp.symm⟩, hown]
      rfl
    · rw [if_pos hp, if_neg hown, if_neg fun heq => hown heq.1]
      rfl
  · rw [if_neg hp, if_neg fun heq => hp heq.2.symm]
    rfl

end Slots

private theorem writes_writeRegister {i : Nat} {r : Register}
    (h : registers[i]? = some r) (r' : Register) (v : UInt8) :
    (Operation.writeRegister i v).writes r'
      = if r' = r then some v else none := by
  obtain rfl := index_of_registers h
  have hindex : r.index = r'.index ↔ r' = r := by
    constructor
    · intro heq
      have hr := registers_index r'
      rw [← heq, registers_index r] at hr
      exact (Option.some.inj hr).symm
    · rintro rfl
      rfl
  unfold Operation.writes
  simp only [hindex]

/-- What a write to a register makes of a slot of the device on a port. -/
private theorem get_acts_writeRegister {hub : Hub} (h : hub.Distinct)
    (index : Nat) (v : UInt8) (slot : Slot) (port : Port) (d : Peripheral) :
    let op := Operation.writeRegister index v
    slot.get (d.acted (hub.layout.acts (hub.portDevice port) op)).core
      = ((op.writes (slot.register port)).map slot.keeps).getD
        (slot.get d.core) := by
  intro op
  cases hr : registers[index]? with
  | none =>
      have hindex : ¬index = (slot.register port).index := fun heq => by
        rw [heq, registers_index] at hr
        cases hr
      unfold Layout.acts Operation.writes
      dsimp only [op]
      rw [hr, if_neg hindex]
      rfl
  | some r =>
      rw [writes_writeRegister hr]
      unfold Layout.acts
      dsimp only [op]
      rw [hr]
      cases r with
      | data p =>
          rw [if_neg (slot.register_ne_data port p)]
          exact get_only_access slot d (slot.after_writeData · v) _ _ _
      | control p =>
          exact get_only_write slot d h .control
            (get_writeControl slot d _ v) p port
      | transmit p =>
          exact get_only_write slot d h .transmit
            (by cases slot <;> rfl) p port
      | serialControl p =>
          exact get_only_write slot d h .serialControl
            (by cases slot <;> rfl) p port
      | version | receive _ =>
          rw [if_neg (by cases slot <;> exact nofun)]
          rfl

/-- What an operation makes of a slot of the device on a port: the byte that it
writes there, or what it was. -/
theorem get_acts {hub : Hub} (h : hub.Distinct) {op : Operation}
    (hop : ¬op.Rewires) (slot : Slot) (port : Port) (d : Peripheral) :
    slot.get (d.acted (hub.layout.acts (hub.portDevice port) op)).core
      = ((op.writes (slot.register port)).map slot.keeps).getD
        (slot.get d.core) := by
  cases op with
  | replace _ _ | connect _ _ | connectNew _ _ | reset =>
      exact absurd trivial hop
  | add _ | readControl _ => rfl
  | attach tap p sub =>
      unfold Layout.acts
      dsimp only
      split
      · rfl
      · exact get_only_of_eq slot d (get_link slot d p sub _) _ _
  | updateButtons target buttons | updatePort p buttons =>
      refine get_only_of_eq slot d ?_ _ _
      exact (get_call slot d (.update _)).trans (by cases slot <;> rfl)
  | moveTo target x y =>
      refine get_only_of_eq slot d ?_ _ _
      exact (get_call slot d (.moveTo x y)).trans (by cases slot <;> rfl)
  | scanline => exact (get_call slot d .scanline).trans (by cases slot <;> rfl)
  | resetDevices => cases slot <;> rfl
  | readData p => exact get_only_access slot d slot.after_noteRead _ _ _
  | writeData p v =>
      unfold Operation.writes
      dsimp only
      rw [if_neg (slot.register_ne_data port p)]
      exact get_only_access slot d (slot.after_writeData · v) _ _ _
  | writeControl p v =>
      exact get_only_write slot d h .control (get_writeControl slot d _ v)
        p port
  | readRegister index =>
      unfold Layout.acts
      dsimp only
      split
      · exact get_only_access slot d slot.after_noteRead _ _ _
      · rfl
  | writeRegister index v => exact get_acts_writeRegister h index v slot port d

/-- Behind one operation a slot holds what was written, or what it held. -/
theorem slot_after {hub : Hub} (h : hub.Distinct) {op : Operation}
    (hop : ¬op.Rewires) (slot : Slot) (port : Port) :
    (hub.after op).portField port slot.get
      = ((op.writes (slot.register port)).map slot.keeps).getD
        (hub.portField port slot.get) := by
  obtain ⟨d, hd⟩ := h.present port
  have hbefore : hub.portField port slot.get = slot.get d.core := by
    unfold portField
    rw [hd]
    rfl
  rw [hbefore, ← get_acts h hop slot port d]
  unfold portField
  rw [portDevice_of_not_rewires hop, device?_after_some hd]
  rfl

/-- Distinct ports stay distinct along operations that connect nothing. -/
theorem Distinct.run {hub : Hub} (h : hub.Distinct) {ops : List Operation}
    (hops : ∀ op ∈ ops, ¬op.Rewires) : (ops.foldl Hub.after hub).Distinct := by
  induction ops generalizing hub with
  | nil => exact h
  | cons op rest ih =>
      exact ih (h.after (hops op List.mem_cons_self)) fun op' hop' =>
        hops op' (List.mem_cons_of_mem _ hop')

/-- A slot holds the last byte written to it. -/
theorem slot_run {hub : Hub} (h : hub.Distinct) {ops : List Operation}
    (hops : ∀ op ∈ ops, ¬op.Rewires) (slot : Slot) (port : Port) :
    (ops.foldl Hub.after hub).portField port slot.get
      = ((lastWritten (slot.register port) ops).map slot.keeps).getD
          (hub.portField port slot.get) := by
  induction ops using List.reverseRecOn with
  | nil => rfl
  | append_singleton ops op ih =>
      have hbefore : ∀ op ∈ ops, ¬op.Rewires := fun op hop =>
        hops op (List.mem_append_left _ hop)
      have hop : ¬op.Rewires :=
        hops op (List.mem_append_right _ List.mem_cons_self)
      rw [List.foldl_append]
      show (Hub.after _ op).portField port slot.get = _
      rw [slot_after (h.run hbefore) hop, ih hbefore]
      unfold lastWritten
      rw [List.filterMap_append, List.getLast?_append]
      cases hwrites : op.writes (slot.register port) with
      | none => simp [hwrites]
      | some v => simp [hwrites]

-- ============================================================= other ports

/-- The devices show others the same, and device `q` is the same in all. -/
def Agree (q id : Nat) (d d' : Peripheral) : Prop :=
  d.outline = d'.outline ∧ (id = q → d = d')

/-- A device agrees with itself. -/
theorem Agree.refl (q id : Nat) (d : Peripheral) : Agree q id d d :=
  ⟨rfl, fun _ => rfl⟩

/-- The same act on both sides keeps the agreement. -/
theorem Agree.act {q id : Nat} {d d' : Peripheral} (h : Agree q id d d')
    (a : Device.Act) :
    Agree q id (a.apply d) (a.apply d') :=
  ⟨Device.outline_act h.1 a,
    fun hid => congrArg (Device.Act.apply · a) (h.2 hid)⟩

theorem Agree.acted {q id : Nat} {d d' : Peripheral} (h : Agree q id d d')
    (acts : List Device.Act) : Agree q id (d.acted acts) (d'.acted acts) :=
  List.foldl_rel h fun a _ _ _ hd => hd.act a

section Agreement

variable {q : Nat} {hub hub' : Hub}

/-- An operation on both hubs keeps them paired. -/
theorem Paired.after (h : Paired (Agree q) hub hub') (op : Operation) :
    Paired (Agree q) (hub.after op) (hub'.after op) :=
  Paired.next (e := .operation op) (Agree.refl q) (fun _ _ _ hd => hd.1)
    (fun _ _ _ _ hd => hd.acted _) h

/-- Operations on both hubs keep them paired. -/
theorem Paired.run (h : Paired (Agree q) hub hub') (ops : List Operation) :
    Paired (Agree q) (ops.foldl Hub.after hub) (ops.foldl Hub.after hub') := by
  induction ops generalizing hub hub' with
  | nil => exact h
  | cons op rest ih => exact ih (h.after op)

/-- Paired hubs have the same device under the watched id. -/
theorem Paired.device?_eq (h : Paired (Agree q) hub hub') :
    hub.device? q = hub'.device? q := by
  have hsame := h.map_eq (f := fun d => d) fun _ _ _ hd => hd.2 rfl
  rwa [Option.map_id', Option.map_id'] at hsame

/-- The registers of a port show the device on it and nothing else. -/
theorem Paired.shows_eq {port : Port}
    (h : Paired (Agree (hub.portDevice port)) hub hub') {r : Register}
    (hr : r.port? = some port) : hub.shows r = hub'.shows r := by
  have hport := h.portDevice port
  refine Hub.shows_eq hr (fun slot => ?_) ?_
  · unfold portField
    rw [← hport, h.device?_eq]
  · have hafter := (h.after (.readData port)).device?_eq
    show (((hub.after (.readData port)).device? (hub.portDevice port)).map
      Device.read).getD 0xFF
      = (((hub'.after (.readData port)).device? (hub'.portDevice port)).map
        Device.read).getD 0xFF
    rw [← hport, hafter]

/-- A write to a register of a port reaches the device there, and none of it
shows in the outline. -/
theorem acted_write (hub : Hub) {r : Register} {port : Port}
    (hr : r.port? = some port) (v : UInt8) (id : Nat) (d : Peripheral) :
    (d.acted (hub.layout.acts id (.writeRegister r.index v))).outline
      = d.outline
      ∧ (hub.portDevice port ≠ id →
          d.acted (hub.layout.acts id (.writeRegister r.index v)) = d) := by
  -- an act on one device leaves the others as they are
  have honly : ∀ a : Device.Act, (a.apply d).outline = d.outline →
      (d.acted (a.only (hub.portDevice port) id)).outline = d.outline
        ∧ (hub.portDevice port ≠ id → d.acted (a.only (hub.portDevice port) id)
          = d) := by
    intro a ha
    unfold Device.Act.only
    by_cases hid : hub.portDevice port = id
    · rw [if_pos hid]
      exact ⟨ha, fun hne => absurd hid hne⟩
    · rw [if_neg hid]
      exact ⟨rfl, fun _ => rfl⟩
  unfold Layout.acts
  dsimp only
  rw [registers_index]
  cases r with
  | version => cases hr
  | data p =>
      cases hr
      exact honly (.access _ (.writeData v)) (d.outline_see _)
  | control p =>
      cases hr
      exact honly (.access _ (.writeControl v)) (d.outline_see _)
  | transmit p =>
      cases hr
      exact honly (.sendSerial v) rfl
  | serialControl p =>
      cases hr
      exact honly (.setSerial _) rfl
  | receive p => exact ⟨rfl, fun _ => rfl⟩

/-- A write on a port that leads elsewhere pairs the hub with itself. -/
private theorem agree_write (hub : Hub) {r : Register} {port : Port}
    (hr : r.port? = some port) (v : UInt8) (hq : hub.portDevice port ≠ q) :
    Paired (Agree q) (hub.writeRegister r.index v) hub := by
  obtain ⟨hports, hversion⟩ := frame_after hub (.writeRegister r.index v)
  refine ⟨hports, hversion, fun id => ?_⟩
  rw [device?_writeRegister]
  cases hub.device? id with
  | none => exact .none
  | some d =>
      obtain ⟨houtline, hother⟩ := acted_write hub hr v id d
      exact .some ⟨houtline, fun hid => hother (hid ▸ hq)⟩

end Agreement

-- =============================================================== the block

private theorem portDevice_run {ops : List Operation}
    (hops : ∀ op ∈ ops, ¬op.Rewires) (hub : Hub) (port : Port) :
    (ops.foldl Hub.after hub).portDevice port = hub.portDevice port := by
  induction ops generalizing hub with
  | nil => rfl
  | cons op rest ih =>
      have hrest : ∀ op ∈ rest, ¬op.Rewires := fun op' hop' =>
        hops op' (List.mem_cons_of_mem _ hop')
      rw [List.foldl_cons, ih hrest]
      exact portDevice_of_not_rewires (hops op List.mem_cons_self) hub port

private theorem version_run (hub : Hub) (ops : List Operation) :
    (ops.foldl Hub.after hub).version = hub.version := by
  induction ops generalizing hub with
  | nil => rfl
  | cons op rest ih => exact (ih _).trans (frame_after hub op).2

/-- The slots are all that a port remembers for the console, so a run shows in
them what was written last. -/
theorem shows_slot_run {hub : Hub} (h : hub.Distinct) {ops : List Operation}
    (hops : ∀ op ∈ ops, ¬op.Rewires) (slot : Slot) (port : Port) :
    (ops.foldl Hub.after hub).shows (slot.register port)
      = ((lastWritten (slot.register port) ops).map slot.keeps).getD
          (hub.shows (slot.register port)) := by
  rw [shows_slot, shows_slot, slot_run h hops]

/-- Outside the register file nothing is read and nothing is written. -/
theorem open_bus (hub : Hub) {index : Nat} (h : registerCount ≤ index)
    (v : UInt8) :
    hub.readRegister index = (0xFF, hub) ∧ hub.writeRegister index v = hub := by
  have hnone : registers[index]? = none := List.getElem?_eq_none h
  unfold readRegister writeRegister
  rw [hnone]
  exact ⟨rfl, rfl⟩

/-- What one port was told shows on no other, then or later. -/
theorem shows_other_port {hub : Hub} (h : hub.Distinct) {r r' : Register}
    {port port' : Port} (hr : r.port? = some port) (hr' : r'.port? = some port')
    (hne : port ≠ port') (v : UInt8) {ops : List Operation}
    (hops : ∀ op ∈ ops, ¬op.Rewires) :
    (ops.foldl Hub.after (hub.writeRegister r.index v)).shows r'
      = (ops.foldl Hub.after hub).shows r' := by
  have hother : hub.portDevice port ≠ hub.portDevice port' :=
    fun heq => hne (h.different heq)
  have hpaired := (agree_write hub hr v hother).run ops
  have hport : (ops.foldl Hub.after (hub.writeRegister r.index v)).portDevice
      port'
      = hub.portDevice port' := by
    rw [hpaired.portDevice, portDevice_run hops]
  rw [← hport] at hpaired
  exact hpaired.shows_eq hr'

/-- The register block is a file of registers, one for each port, as long as the
three different devices on the ports are not exchanged or reset. The control
and serial registers show what was written last, the last serial one without
its low bits; nothing is ever received; the version stays; beyond the block is
an open bus; and no write to a port shows on another one. -/
theorem register_block {hub : Hub} (h : hub.Distinct) {ops : List Operation}
    (hops : ∀ op ∈ ops, ¬op.Rewires) :
    let later := ops.foldl Hub.after hub
    (∀ port, later.shows (.control port)
        = (lastWritten (.control port) ops).getD (hub.shows (.control port)))
      ∧ (∀ port, later.shows (.transmit port)
        = (lastWritten (.transmit port) ops).getD (hub.shows (.transmit port)))
      ∧ (∀ port, later.shows (.serialControl port)
        = ((lastWritten (.serialControl port) ops).map (· &&& 0xF8)).getD
            (hub.shows (.serialControl port)))
      ∧ (∀ port, later.shows (.receive port) = 0xFF)
      ∧ later.shows .version = hub.version
      ∧ (∀ index v, registerCount ≤ index →
        later.readRegister index = (0xFF, later)
          ∧ later.writeRegister index v = later)
      ∧ ∀ (r r' : Register) (port port' : Port) (v : UInt8)
        (more : List Operation),
        r.port? = some port → r'.port? = some port' → port ≠ port' →
        (∀ op ∈ more, ¬op.Rewires) →
        (more.foldl Hub.after (later.writeRegister r.index v)).shows r'
          = (more.foldl Hub.after later).shows r' := by
  intro later
  -- a register that masks nothing is the law of the slots at the identity
  have hkept : ∀ (r : Register) (initial : UInt8),
      ((lastWritten r ops).map fun v => v).getD initial
        = (lastWritten r ops).getD initial := by
    intro r initial
    rw [Option.map_id']
  refine ⟨fun port => ?_, fun port => ?_, fun port => ?_, later.shows_receive,
    version_run hub ops, fun index v hindex => later.open_bus hindex v, ?_⟩
  · exact (shows_slot_run h hops .control port).trans (hkept _ _)
  · exact (shows_slot_run h hops .transmit port).trans (hkept _ _)
  · exact shows_slot_run h hops .serialControl port
  · intro r r' port port' v more hr hr' hne hmore
    exact shows_other_port (h.run hops) hr hr' hne v hmore

/-- A multitap that shows the pad on the second port, the pad itself, and a
ColecoVision controller. -/
theorem register_block_tap :
    let hub := [Operation.connectNew .one .teamPlayer,
      .connectNew .two .sixButton,
      .connectNew .ext .coleco, .attach 3 0 (some 4)].foldl Hub.after empty
    let ops := [Operation.writeRegister 4 0x60,
      .updatePort .two (Button.pressed Button.a),
      .writeRegister 9 0x55, .writeRegister 1 0x20, .writeRegister 0 0x00,
      .readRegister 1,
      .writeRegister 9 0xFF, .scanline]
    let later := ops.foldl Hub.after hub
    hub.Distinct ∧ (∀ op ∈ ops, ¬op.Rewires)
      ∧ later.shows (.control .one) = 0x60
      ∧ later.shows (.serialControl .one) = 0xF8
      ∧ later.shows (.transmit .one) = 0xFF ∧ later.shows .version = 0xA0
      ∧ (later.writeRegister 1 0x00).shows (.data .two)
        = later.shows (.data .two) := by
  intro hub ops later
  have hdistinct : hub.Distinct := by
    constructor
    · intro port
      have hpresent : (hub.device? (hub.portDevice port)).isSome = true := by
        cases port <;> decide +kernel
      exact Option.isSome_iff_exists.1 hpresent
    · have hports : hub.ports = #v[3, 4, 5] := by decide +kernel
      intro port port' heq
      unfold portDevice at heq
      rw [hports] at heq
      cases port <;> cases port' <;> first | rfl | cases heq
  have hops : ∀ op ∈ ops, ¬op.Rewires := by simp [ops, Operation.Rewires]
  obtain ⟨hcontrol, htransmit, hserial, -, hversion, -, hother⟩ :=
    register_block hdistinct hops
  refine ⟨hdistinct, hops, ?_, ?_, ?_, ?_, ?_⟩
  · exact (hcontrol .one).trans (by decide +kernel)
  · exact (hserial .one).trans (by decide +kernel)
  · exact (htransmit .one).trans (by decide +kernel)
  · exact hversion.trans (by decide +kernel)
  · have hdata := hother (.data .one) (.data .two) .one .two 0x00 [] rfl rfl
      (by decide) (by simp)
    rw [List.foldl_nil, List.foldl_nil] at hdata
    exact hdata

end Hub

end ConsoleBoard.Controller
