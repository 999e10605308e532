/-
A paddle shows its position in two halves.

Which half is on the lines is the lowest bit of the paddle's counter. Only a
read turns it over, and only a reset or an exchange clears it; everything else
that a hub does makes the paddle answer again with the half that it has. So the
acts of an event are sorted by what they are to a paddle (`Touch`), an event
holds at most one that is anything to it (`touch?_eventActs`), and the half
follows from the number of reads since the paddle was made or reset
(`turned_events`). While nothing touches it, a read gives the other half of the
same position, and the two make the position whole.

# Two reads of one position

For two reads to show the halves of the same position, the paddle has to stay
what it is in between. The events before the pair may do anything but move the
device or renew it (`Stays`), and those between the two reads may not touch it
at all (`Rests`). Both are conditions on an event in the hub in which it
happens, laid along the list (`Along`), since a connection to a device that is
not there is refused and moves nothing.
-/
import ConsoleBoard.Proofs.Controller.Paddle
import ConsoleBoard.Proofs.Controller.Reset

namespace ConsoleBoard.Controller

open Device (Act Call)

-- ================================================================= touches

/-- What there is that matters to a paddle: it begins anew, it is read, or its
pointer moves. -/
inductive Touch
  | renewed | read | aimed
deriving DecidableEq

/-- Reads since the last renewal. -/
def Touch.tally (n : Nat) : Option Touch → Nat
  | some .renewed => 0
  | some .read => n + 1
  | _ => n

theorem Touch.ne_renewed {touch : Option Touch}
    (h : touch = none ∨ touch = some .read) :
    touch ≠ some .renewed := by
  rintro rfl
  rcases h with h | h <;> cases h

def Device.Call.touch? : Call → Option Touch
  | reset => some .renewed
  | noteRead => some .read
  | moveTo _ _ => some .aimed
  | _ => none

def Device.Act.touch? : Act → Option Touch
  | place _ | restart => some .renewed
  | access _ c | call c => c.touch?
  | _ => none

/-- The port whose data register the console reads. -/
def Hub.Operation.portRead? : Hub.Operation → Option Port
  | readData port => some port
  | readRegister index =>
    match registers[index]? with
    | some (.data port) => some port
    | _ => none
  | _ => none

/-- What an event is to device `id`, when the console has it on the ports that
`reach` says. A host can also tell the device of a read by itself. -/
def Hub.Event.touch? (reach : Port → Bool) (id : Nat) : Hub.Event → Option Touch
  | operation op =>
    match op with
    | .replace target _ => if target = id then some .renewed else none
    | .reset | .resetDevices => some .renewed
    | .moveTo target _ _ => if target = id then some .aimed else none
    | op => if op.portRead?.any reach then some .read else none
  | setVersion _ => none
  | device target c => if target = id then c.touch? else none

/-- An act for one device touches that one and no other. -/
theorem Device.Act.touch?_only (a : Act) (target id : Nat) :
    (a.only target id).filterMap touch?
      = (if target = id then a.touch? else none).toList := by
  unfold only
  split
  · cases h : a.touch? with
    | none => rw [List.filterMap_cons_none h]; rfl
    | some t => rw [List.filterMap_cons_some h]; rfl
  · rfl

/-- A read of a port turns the device there. -/
private theorem Layout.touch?_readActs (l : Layout) (id : Nat) (port : Port) :
    ((Act.access (l.seenBy id) .noteRead).only
        (l.portDevice port) id).filterMap Act.touch?
      = (if (some port).any (fun port => l.portDevice port == id)
          then some Touch.read else none).toList := by
  rw [Act.touch?_only, Option.any_some]
  by_cases hport : l.portDevice port = id
  · rw [if_pos hport, if_pos (beq_iff_eq.2 hport)]
    rfl
  · rw [if_neg hport, if_neg (mt beq_iff_eq.1 hport)]

/-- An act that touches no paddle touches none when it is for one device. -/
theorem Device.Act.touch?_only_none {a : Act} (ha : a.touch? = none)
    (target id : Nat) : (a.only target id).filterMap Act.touch? = [] := by
  rw [Act.touch?_only, ha, ite_self]
  rfl

/-- What the acts of an event are to a device, the event is. -/
theorem Layout.touch?_eventActs (l : Layout) (id : Nat) (e : Hub.Event) :
    (l.eventActs id e).filterMap Act.touch?
      = (e.touch? (fun port => l.portDevice port == id) id).toList := by
  cases e with
  | setVersion v => rfl
  | device target c => exact Act.touch?_only (.call c) target id
  | operation op =>
      cases op with
      | replace target kind => exact Act.touch?_only (.place kind) target id
      | moveTo target x y =>
          exact Act.touch?_only (.call (.moveTo x y)) target id
      | readData port => exact l.touch?_readActs id port
      | readRegister index =>
          cases hregister : Hub.registers[index]? with
          | none =>
              simp only [eventActs, acts, Hub.Event.touch?,
                Hub.Operation.portRead?, hregister]
              rfl
          | some r =>
              simp only [eventActs, acts, Hub.Event.touch?,
                Hub.Operation.portRead?, hregister]
              cases r with
              | data port => exact l.touch?_readActs id port
              | version | control _ | transmit _ | receive _
              | serialControl _ => rfl
      | reset =>
          have hlook : (Port.all.flatMap fun port =>
              (Act.see (l.released.seenBy id)).only
                (l.portDevice port) id).filterMap Act.touch?
                = [] := by
            rw [List.filterMap_flatMap]
            exact List.flatMap_eq_nil_iff.2 fun port _ =>
              Act.touch?_only_none rfl _ _
          exact congrArg (Touch.renewed :: ·) hlook
      | attach tap port sub =>
          simp only [eventActs, acts]
          split
          · rfl
          · exact Act.touch?_only_none rfl _ _
      | updateButtons target buttons | updatePort target buttons
      | writeData target v | writeControl target v =>
          exact Act.touch?_only_none rfl _ _
      | writeRegister index v =>
          simp only [eventActs, acts]
          split <;> first | exact Act.touch?_only_none rfl _ _ | rfl
      | add kind | connect port target | connectNew port kind | readControl port
      | scanline | resetDevices => rfl

-- ======================================================== the paddle's law

namespace Device

private theorem kind_see (d : Peripheral) (states : List (Option Chained)) :
    (d.see states).kind = d.kind :=
  congrArg (·.kind) (outline_see d states)

private theorem kind_call (c : Call) (d : Peripheral) :
    (c.apply d).kind = d.kind :=
  congrArg (·.kind) (outline_call c d)

/-- Only an exchange makes a device another kind. -/
theorem kind_act {a : Act} (h : ∀ kind, a ≠ .place kind) (d : Peripheral) :
    (a.apply d).kind = d.kind := by
  cases a with
  | place kind => exact absurd rfl (h kind)
  | link port sub states =>
      exact (kind_see _ _).trans (congrArg (·.kind) (outline_link d port sub))
  | see states => exact kind_see d states
  | access states c => exact (kind_call c _).trans (kind_see d states)
  | press buttons => exact kind_call (.update _) d
  | call c => exact kind_call c d
  | sendSerial v | setSerial v | restart => rfl

/-- A device of the paddle's kind is a paddle. -/
theorem own_of_kind {d : Peripheral} (h : d.kind = .paddle) :
    ∃ core, d = ⟨core, .paddle⟩ := by
  obtain ⟨core, own⟩ := d
  cases own with
  | paddle => exact ⟨core, rfl⟩
  | none | twoButton | threeButton | sixButton | coleco | teamPlayer tap =>
      cases h

/-- If the device is a paddle, its half is that after `n` reads. -/
def Turned (n : Nat) (d : Peripheral) : Prop :=
  d.kind = .paddle → d.core.counter % 2 = n % 2

/-- A new paddle has not been turned. -/
theorem turned_create (kind : Kind) :
    Turned 0 (Device.create (.ofKind kind)) := by
  intro h
  cases kind <;> rfl

/-- A call turns the paddle as often as it reads it. -/
private theorem turned_call {n : Nat} {core : Core}
    (h : core.counter % 2 = n % 2) (c : Call) :
    Turned (Touch.tally n c.touch?)
      (c.apply (⟨core, .paddle⟩ : Peripheral)) := by
  intro _
  cases c with
  | noteRead =>
      show (core.counter ^^^ 1) % 2 = (n + 1) % 2
      rw [Nat.xor_mod_two_eq]
      omega
  | reset => rfl
  | writeControl v | writeData v | update buttons | moveTo x y | setPin58 v
  | refresh | scanline =>
      exact h

/-- An act turns the paddle as often as it reads it. -/
theorem turned_act {n : Nat} {d : Peripheral} (h : Turned n d) (a : Act) :
    Turned (Touch.tally n a.touch?) (a.apply d) := by
  by_cases hplace : ∃ kind, a = .place kind
  · obtain ⟨kind, rfl⟩ := hplace
    exact turned_create kind
  · intro hkind
    have hpaddle : d.kind = .paddle :=
      (kind_act (fun kind hact => hplace ⟨kind, hact⟩) d).symm.trans hkind
    obtain ⟨core, rfl⟩ := own_of_kind hpaddle
    have hcount : core.counter % 2 = n % 2 := h rfl
    cases a with
    | place kind => exact absurd ⟨kind, rfl⟩ hplace
    | call c => exact turned_call hcount c hkind
    | access states c => exact turned_call hcount c hkind
    | restart => rfl
    | link port sub states => exact hcount
    | see states | press buttons | sendSerial v | setSerial v => exact hcount

/-- A paddle keeps its pointer where nothing aims or renews it. -/
theorem pointer_act {a : Act} (ha : a.touch? = none ∨ a.touch? = some .read)
    (core : Core) :
    ∃ core', a.apply (⟨core, .paddle⟩ : Peripheral) = ⟨core', .paddle⟩
      ∧ core'.x = core.x ∧ core'.y = core.y := by
  have hcall : ∀ c : Call, c.touch? = none ∨ c.touch? = some .read →
      ∃ core', c.apply (⟨core, .paddle⟩ : Peripheral) = ⟨core', .paddle⟩
        ∧ core'.x = core.x ∧ core'.y = core.y := by
    intro c hc
    cases c with
    | moveTo x y | reset => rcases hc with hc | hc <;> cases hc
    | writeControl v | writeData v | update buttons | setPin58 v | refresh
    | noteRead | scanline =>
        exact ⟨_, rfl, rfl, rfl⟩
  cases a with
  | place kind | restart => rcases ha with ha | ha <;> cases ha
  | call c => exact hcall c ha
  | access states c => exact hcall c ha
  | link port sub states => exact ⟨_, rfl, rfl, rfl⟩
  | see states | press buttons | sendSerial v | setSerial v =>
      exact ⟨_, rfl, rfl, rfl⟩

end Device

namespace Hub

-- ======================================================= reads of a device

/-- How many reads have reached device `id` since it was made or last reset, by
whatever port it was on, when `n` had reached it before the events. -/
def readsSince (id : Nat) : (n : Nat) → Hub → List Event → Nat
  | n, _, [] => n
  | n, hub, e :: rest =>
    let touch := e.touch? (fun port => hub.portDevice port == id) id
    let made := e.added.isSome ∧ hub.deviceCount = id
    readsSince id (if made then 0 else Touch.tally n touch) (hub.next e) rest

/-- Reads are counted along the events. -/
private theorem readsSince_append (id n : Nat) (hub : Hub)
    (events later : List Event) :
    readsSince id n hub (events ++ later)
      = readsSince id (readsSince id n hub events)
        (events.foldl next hub) later := by
  induction events generalizing n hub with
  | nil => rfl
  | cons e rest ih => exact ih _ _

/-- A device stays found behind any event. -/
private theorem device?_next_some {hub : Hub} {id : Nat} {d : Peripheral}
    (h : hub.device? id = some d) (e : Event) :
    (hub.next e).device? id = some (d.acted (hub.layout.eventActs id e)) := by
  rw [device?_next, h]
  rfl

private theorem turned_acted {n : Nat} {d : Peripheral} (h : Device.Turned n d)
    (acts : List Act) :
    Device.Turned
      ((acts.filterMap Act.touch?).foldl (fun n t => Touch.tally n (some t)) n)
      (d.acted acts) := by
  induction acts generalizing n d with
  | nil => exact h
  | cons a rest ih =>
      have ha := Device.turned_act h a
      cases htouch : a.touch? with
      | none =>
          rw [htouch] at ha
          rw [List.filterMap_cons_none htouch]
          exact ih ha
      | some t =>
          rw [htouch] at ha
          rw [List.filterMap_cons_some htouch]
          exact ih ha

/-- An event turns every paddle as often as it reads it. -/
private theorem turned_next {id n : Nat} {hub : Hub}
    (h : ∀ d, hub.device? id = some d → Device.Turned n d) (e : Event) :
    ∀ d, (hub.next e).device? id = some d →
      Device.Turned (if e.added.isSome ∧ hub.deviceCount = id then 0
        else Touch.tally n
          (e.touch? (fun port => hub.portDevice port == id) id)) d := by
  intro d hd
  rw [device?_next, Option.or_eq_some_iff] at hd
  -- the device was there before, or the event has made it
  rcases hd with hold | ⟨-, hnew⟩
  · obtain ⟨old, hdevice, rfl⟩ := Option.map_eq_some_iff.1 hold
    have hlt : id < hub.deviceCount :=
      lt_deviceCount_iff.2 (Option.isSome_of_mem hdevice)
    have hacted := turned_acted (h old hdevice) (hub.layout.eventActs id e)
    rw [Layout.touch?_eventActs] at hacted
    rw [if_neg fun hmade => Nat.ne_of_gt hlt hmade.2]
    let reach := fun port => hub.layout.portDevice port == id
    show Device.Turned (Touch.tally n (e.touch? reach id)) _
    cases htouch : e.touch? reach id with
    | none =>
        rw [htouch] at hacted
        exact hacted
    | some t =>
        rw [htouch] at hacted
        exact hacted
  · split at hnew
    next hid =>
      obtain ⟨kind, hkind, rfl⟩ := Option.map_eq_some_iff.1 hnew
      rw [if_pos ⟨Option.isSome_of_mem hkind, hid.symm⟩]
      exact Device.turned_create kind
    next => cases hnew

/-- The half of a paddle goes by the reads that have reached it. -/
theorem turned_events {id n : Nat} {hub : Hub}
    (h : ∀ d, hub.device? id = some d → Device.Turned n d)
    (events : List Event) :
    ∀ d, (events.foldl next hub).device? id = some d →
      Device.Turned (readsSince id n hub events) d := by
  induction events generalizing n hub with
  | nil => exact h
  | cons e rest ih => exact ih (turned_next h e)

/-- The two accesses that read a port do the same. -/
theorem perform_read {r : Operation} {port : Port}
    (hr : r.portRead? = some port) (hub : Hub) :
    r.perform hub = (.byte (hub.readData port).1, (hub.readData port).2) := by
  cases r with
  | readData p =>
      obtain rfl : p = port := Option.some.inj hr
      rfl
  | readRegister index =>
      have hregister : registers[index]? = some (.data port) := by
        simp only [Operation.portRead?] at hr
        split at hr
        next p hp =>
          obtain rfl : p = port := Option.some.inj hr
          exact hp
        next => cases hr
      show (Reply.byte (hub.readRegister index).1, (hub.readRegister index).2)
        = _
      unfold readRegister
      rw [hregister]
  | _ => cases hr

-- ======================================================= on one port alone

/-- The device is a paddle, on the port and on no other. -/
structure PaddleOn (hub : Hub) (id : Nat) (port : Port) : Prop where
  paddle : ∃ core, hub.device? id = some ⟨core, .paddle⟩
  only : ∀ p, hub.portDevice p = id ↔ p = port

/-- The event connects the device to another port, or the port to another
device. Connecting a device that is not there is refused and moves nothing. -/
def Event.Moves (hub : Hub) (id : Nat) (port : Port) : Event → Prop
  | operation (.connect p target) =>
      target < hub.deviceCount ∧ ¬(p = port ↔ target = id)
  | operation (.connectNew p _) => p = port
  | _ => False

instance (hub : Hub) (id : Nat) (port : Port) :
    (e : Event) → Decidable (e.Moves hub id port)
  | .operation op => by
      cases op <;> unfold Event.Moves <;> infer_instance
  | .setVersion _ | .device _ _ => .isFalse fun h => h

/-- Every event meets a condition in the hub in which it happens. -/
def Along (condition : Hub → Event → Prop) (hub : Hub) : List Event → Prop
  | [] => True
  | e :: rest => condition hub e ∧ Along condition (hub.next e) rest

/-- A weaker condition holds along the same events. -/
theorem Along.imp {condition condition' : Hub → Event → Prop}
    (himp : ∀ {hub e}, condition hub e → condition' hub e) {hub : Hub}
    {events : List Event} (h : Along condition hub events) :
    Along condition' hub events := by
  induction events generalizing hub with
  | nil => trivial
  | cons e rest ih => exact ⟨himp h.1, ih h.2⟩

instance Along.decidable {condition : Hub → Event → Prop}
    [∀ hub e, Decidable (condition hub e)] (hub : Hub) :
    (events : List Event) → Decidable (Along condition hub events)
  | [] => .isTrue trivial
  | e :: rest =>
    have : Decidable (Along condition (hub.next e) rest) :=
      Along.decidable (hub.next e) rest
    inferInstanceAs
      (Decidable (condition hub e ∧ Along condition (hub.next e) rest))

/-- The device stays on its port, and nobody resets or exchanges it. -/
def Stays (id : Nat) (port : Port) (hub : Hub) (e : Event) : Prop :=
  ¬e.Moves hub id port ∧ e.touch? (· == port) id ≠ some .renewed

/-- The device stays on its port, and is not touched at all. -/
def Rests (id : Nat) (port : Port) (hub : Hub) (e : Event) : Prop :=
  ¬e.Moves hub id port ∧ e.touch? (· == port) id = none

instance (id : Nat) (port : Port) (hub : Hub) (e : Event) :
    Decidable (Rests id port hub e) :=
  inferInstanceAs
    (Decidable (¬e.Moves hub id port ∧ e.touch? (· == port) id = none))

/-- A device that is not moved stays on its port and on no other. -/
private theorem only_next {hub : Hub} {id : Nat} {port : Port}
    (hid : id < hub.deviceCount) (honly : ∀ p, hub.portDevice p = id ↔ p = port)
    {e : Event} (he : ¬e.Moves hub id port) (p : Port) :
    (hub.next e).portDevice p = id ↔ p = port := by
  cases e with
  | setVersion v | device target c => exact honly p
  | operation op =>
      have hleads : (hub.next (.operation op)).portDevice p = op.leads hub p :=
        (frame_after hub op).1 p
      rw [hleads]
      -- only the two connects lead a port anew
      cases op with
      | connect p' target =>
          show ite (p' = p ∧ target < hub.devices.size) _ _ = id ↔ p = port
          split
          next hp =>
            have hsame : p' = port ↔ target = id :=
              Decidable.not_not.1 fun hother => he ⟨hp.2, hother⟩
            rw [← hsame, hp.1]
          next => exact honly p
      | connectNew p' kind =>
          have hother : p' ≠ port := he
          show ite (p' = p) _ _ = id ↔ p = port
          split
          next hp =>
            subst hp
            exact ⟨fun hnew => absurd hnew (Nat.ne_of_gt hid),
              fun h => absurd h hother⟩
          next => exact honly p
      | _ => exact honly p

namespace PaddleOn

variable {hub : Hub} {id : Nat} {port : Port} (h : hub.PaddleOn id port)

include h

theorem lt : id < hub.deviceCount :=
  let ⟨_, hcore⟩ := h.paddle
  lt_deviceCount_iff.2 (Option.isSome_of_mem hcore)

theorem portDevice : hub.portDevice port = id := (h.only port).2 rfl

private theorem reach_eq : (fun p => hub.portDevice p == id) = (· == port) := by
  funext p
  rw [Bool.eq_iff_iff, beq_iff_eq, beq_iff_eq]
  exact h.only p

/-- What an event is to the paddle, each of its acts is, if it is anything. -/
theorem touch?_act {e : Event} {a : Act} (ha : a ∈ hub.layout.eventActs id e) :
    a.touch? = none ∨ a.touch? = e.touch? (· == port) id := by
  cases htouch : a.touch? with
  | none => exact .inl rfl
  | some t =>
      have hmem : t ∈ (hub.layout.eventActs id e).filterMap Act.touch? :=
        List.mem_filterMap.2 ⟨a, ha, htouch⟩
      have hreach : (fun p => hub.layout.portDevice p == id) = (· == port) :=
        h.reach_eq
      rw [Layout.touch?_eventActs, hreach, Option.mem_toList] at hmem
      exact .inr hmem.symm

/-- An event that does not move the paddle, and does not renew it, leaves it
on its port. -/
theorem next {e : Event} (hmoves : ¬e.Moves hub id port)
    (htouch : e.touch? (· == port) id ≠ some .renewed) :
    (hub.next e).PaddleOn id port where
  paddle := by
    obtain ⟨core, hcore⟩ := h.paddle
    have hkind : Device.kind (Device.acted (⟨core, .paddle⟩ : Peripheral)
        (hub.layout.eventActs id e)) = .paddle := by
      refine Device.forall_acted (P := fun d => d.kind = .paddle)
        (fun a ha d hd => ?_) rfl
      refine (Device.kind_act (fun kind hplace => ?_) d).trans hd
      subst hplace
      rcases h.touch?_act ha with hnone | hsame
      · cases hnone
      · exact htouch hsame.symm
    obtain ⟨core', hcore'⟩ := Device.own_of_kind hkind
    exact ⟨core', (device?_next_some hcore e).trans (congrArg some hcore')⟩
  only := only_next h.lt h.only hmoves

/-- As long as the paddle stays on its port, the reads of that port are the ones
that reach it. -/
theorem run {later : List Event} (n : Nat)
    (hlater : Along (Stays id port) hub later) :
    (later.foldl Hub.next hub).PaddleOn id port
      ∧ readsSince id n hub later
        = n + later.countP fun e => e.touch? (· == port) id = some .read := by
  induction later generalizing hub n with
  | nil => exact ⟨h, rfl⟩
  | cons e rest ih =>
      obtain ⟨⟨hmoves, htouch⟩, hrest⟩ := hlater
      obtain ⟨hon, hreads⟩ := ih (h.next hmoves htouch)
        (Touch.tally n (e.touch? (· == port) id)) hrest
      refine ⟨hon, ?_⟩
      have hold : ¬(e.added.isSome ∧ hub.deviceCount = id) :=
        fun hmade => Nat.ne_of_gt h.lt hmade.2
      unfold readsSince
      dsimp only
      rw [h.reach_eq, if_neg hold, hreads, List.countP_cons]
      generalize e.touch? (· == port) id = t at htouch
      cases t with
      | none => simp [Touch.tally]
      | some t =>
          cases t with
          | renewed => exact absurd rfl htouch
          | read => simp [Touch.tally]; omega
          | aimed => simp [Touch.tally]

/-- The pointer stays where nothing aims. -/
theorem pointer_next {core : Core}
    (hcore : hub.device? id = some ⟨core, .paddle⟩) {e : Event}
    (he : e.touch? (· == port) id = none
      ∨ e.touch? (· == port) id = some .read) :
    ∃ core', (hub.next e).device? id = some ⟨core', .paddle⟩
      ∧ core'.x = core.x ∧ core'.y = core.y := by
  obtain ⟨core', hcore', hx, hy⟩ : ∃ core',
    Device.acted (⟨core, .paddle⟩ : Peripheral)
      (hub.layout.eventActs id e) = ⟨core', .paddle⟩ ∧ core'.x = core.x
        ∧ core'.y = core.y := by
    refine Device.forall_acted (P := fun d => ∃ core', d = ⟨core', .paddle⟩
      ∧ core'.x = core.x ∧ core'.y = core.y) ?_ ⟨core, rfl, rfl, rfl⟩
    rintro a ha _ ⟨now, rfl, hx, hy⟩
    have htouch : a.touch? = none ∨ a.touch? = some .read :=
      (h.touch?_act ha).elim .inl fun hsame => hsame ▸ he
    obtain ⟨core', hact, hx', hy'⟩ := Device.pointer_act htouch now
    exact ⟨core', hact, hx'.trans hx, hy'.trans hy⟩
  exact ⟨core', (device?_next_some hcore e).trans (congrArg some hcore'), hx,
    hy⟩

/-- Events that only read the paddle leave it on its port. -/
private theorem pointer_run {core : Core}
    (hcore : hub.device? id = some ⟨core, .paddle⟩) {later : List Event}
    (hlater : Along (fun hub e => ¬e.Moves hub id port
      ∧ (e.touch? (· == port) id = none ∨ e.touch? (· == port) id = some .read))
      hub later) :
    ∃ core', (later.foldl Hub.next hub).device? id = some ⟨core', .paddle⟩
      ∧ core'.x = core.x ∧ core'.y = core.y := by
  induction later generalizing hub core with
  | nil => exact ⟨core, hcore, rfl, rfl⟩
  | cons e rest ih =>
      obtain ⟨⟨hmoves, htouch⟩, hrest⟩ := hlater
      obtain ⟨now, hnow, hx, hy⟩ := h.pointer_next hcore htouch
      obtain ⟨core', hcore', hx', hy'⟩ :=
        ih (h.next hmoves (Touch.ne_renewed htouch)) hnow hrest
      exact ⟨core', hcore', hx'.trans hx, hy'.trans hy⟩

/-- A read turns the paddle over and shows the half that is then on the
lines. -/
theorem read {core : Core} (hcore : hub.device? id = some ⟨core, .paddle⟩)
    {r : Operation} (hr : r.portRead? = some port)
    (hinputs : hub.readControl port &&& 0x3F = 0) :
    ∃ v, (r.perform hub).1 = .byte v
      ∧ Pin.tr.isHigh v = decide (core.counter % 2 = 0)
      ∧ (v &&& 0x0F).toNat = if core.counter % 2 = 0
        then (Paddle.position core).toNat / 16
          else (Paddle.position core).toNat % 16 := by
  let turned : Core := { core with counter := core.counter ^^^ 1 }
  have hport : hub.device? (hub.portDevice port) = some ⟨core, .paddle⟩ := by
    rw [h.portDevice, hcore]
  have hcontrol : turned.control &&& 0x3F = 0 := by
    unfold readControl portField at hinputs
    rw [hport] at hinputs
    exact hinputs
  have hvalue : (hub.readData port).1
      = turned.tristate (Paddle.drive turned).data := by
    rw [readData_see, hport]
    rfl
  have hreply : (r.perform hub).1 = .byte
      (turned.tristate (Paddle.drive turned).data) := by
    rw [perform_read hr, hvalue]
  -- the read turns the counter before it shows the half
  have hhalf : Paddle.highHalf turned = decide (core.counter % 2 = 0) := by
    have hturned : turned.counter % 2 = (core.counter + 1) % 2 :=
      Nat.xor_mod_two_eq
    unfold Paddle.highHalf
    rw [decide_eq_decide, hturned]
    omega
  obtain ⟨htr, hnibble⟩ := Paddle.shown_half turned hcontrol
  rw [hhalf] at htr hnibble
  simp only [decide_eq_true_eq] at hnibble
  exact ⟨_, hreply, htr, hnibble⟩

omit h in
/-- A read of the port is a read of the paddle. -/
private theorem touch?_read {r : Operation} (hr : r.portRead? = some port) :
    (Event.operation r).touch? (· == port) id = some .read := by
  cases r with
  | readData p | readRegister index =>
      show (if Option.any _ (Operation.portRead? _) = true then some Touch.read
        else none) = _
      rw [hr]
      simp
  | _ => cases hr

omit h in
/-- Events that rest the paddle do not read it. -/
private theorem countP_read_of_rests {between : List Event}
    (hbetween : Along (Rests id port) hub between) :
    (between.countP fun e => e.touch? (· == port) id = some .read) = 0 := by
  induction between generalizing hub with
  | nil => rfl
  | cons e rest ih =>
      rw [List.countP_cons, ih hbetween.2, hbetween.1.2]
      rfl

/-- A read, and then events that do not touch the paddle: the other half of the
same position is next. -/
theorem turned_once {core : Core}
    (hcore : hub.device? id = some ⟨core, .paddle⟩) {r : Operation}
    (hr : r.portRead? = some port) {between : List Event}
    (hbetween : Along (Rests id port) (hub.after r) between) :
    let now := between.foldl Hub.next (hub.after r)
    now.PaddleOn id port ∧ ∃ core', now.device? id = some ⟨core', .paddle⟩
      ∧ core'.counter % 2 = (core.counter + 1) % 2
      ∧ Paddle.position core' = Paddle.position core := by
  have hmoves : ¬(Event.operation r).Moves hub id port := by
    cases r with
    | connect p target | connectNew p kind => cases hr
    | _ => exact fun h => h
  have hevents : Along (fun hub e => ¬e.Moves hub id port
      ∧ (e.touch? (· == port) id = none ∨ e.touch? (· == port) id = some .read))
      hub (Event.operation r :: between) :=
    ⟨⟨hmoves, .inr (touch?_read hr)⟩, hbetween.imp fun h => ⟨h.1, .inl h.2⟩⟩
  -- what rests the paddle reads nothing, so the first read is the only one
  have hnone : (between.countP fun e => e.touch? (· == port) id = some .read)
      = 0 :=
    countP_read_of_rests hbetween
  obtain ⟨hon, hreads⟩ := h.run core.counter
    (hevents.imp fun h => ⟨h.1, Touch.ne_renewed h.2⟩)
  rw [List.countP_cons, hnone, touch?_read hr] at hreads
  obtain ⟨core', hcore', hx, hy⟩ := h.pointer_run hcore hevents
  have hturned : ∀ d, hub.device? id = some d →
      Device.Turned core.counter d := by
    intro d hd _
    obtain rfl : _ = d := Option.some.inj (hcore.symm.trans hd)
    rfl
  have hcount :=
    turned_events hturned (Event.operation r :: between) _ hcore' rfl
  rw [hreads] at hcount
  refine ⟨hon, core', hcore', hcount, ?_⟩
  unfold Paddle.position
  rw [hx, hy]

/-- The next read after a high half gives the low half that belongs to it. -/
theorem pair {core : Core} (hcore : hub.device? id = some ⟨core, .paddle⟩)
    {r r' : Operation} (hr : r.portRead? = some port)
    (hr' : r'.portRead? = some port)
    (hinputs : hub.readControl port &&& 0x3F = 0) {v : UInt8}
    (hv : (r.perform hub).1 = .byte v) (hhigh : Pin.tr.isHigh v = true)
    {between : List Event}
    (hbetween : Along (Rests id port) (hub.after r) between)
    (hlater : (between.foldl Hub.next (hub.after r)).readControl port &&& 0x3F
      = 0) :
    ∃ v', (r'.perform (between.foldl Hub.next (hub.after r))).1 = .byte v'
      ∧ Pin.tr.isHigh v' = false
      ∧ (v &&& 0x0F).toNat * 16 + (v' &&& 0x0F).toNat
        = (Paddle.position core).toNat := by
  obtain ⟨_, hreply, htr, hnibble⟩ := h.read hcore hr hinputs
  obtain rfl : v = _ := Reply.byte.inj (hv.symm.trans hreply)
  have heven : core.counter % 2 = 0 := of_decide_eq_true (htr.symm.trans hhigh)
  obtain ⟨hon, core', hcore', hcount, hposition⟩ :=
    h.turned_once hcore hr hbetween
  have hodd : core'.counter % 2 = 1 := by omega
  obtain ⟨v', hreply', htr', hnibble'⟩ := hon.read hcore' hr' hlater
  rw [hodd] at htr' hnibble'
  refine ⟨v', hreply', htr', ?_⟩
  rw [hnibble, if_pos heven, hnibble', hposition]
  exact Nat.div_add_mod' _ 16

end PaddleOn

/-- From the empty hub on, the parity of a paddle is that of its reads. -/
private theorem turned_reached (events : List Event) {id : Nat} {core : Core}
    (h : (events.foldl next empty).device? id = some ⟨core, .paddle⟩) :
    core.counter % 2 = readsSince id 0 empty events % 2 := by
  refine turned_events (fun d hd => ?_) events _ h rfl
  obtain rfl := device?_empty hd
  exact Device.turned_create .none

/-- Two reads show the position of a paddle that is on one port alone, with D0
to D5 as inputs there. After whatever has happened, each read of the port shows
the other half: the high one, with TR high, if an even number of reads has
reached the paddle since it was made or last reset, so the first read then does.
A high half and the one that the next read gives make up the position, whatever
comes between the reads, as long as nobody moves the pointer of the paddle,
resets or exchanges it, or connects it or its port to something else that is
there. The position is that of the pointer's column, of which none is too large
for the arithmetic. -/
theorem paddle_in_halves (events : List Event) {id : Nat} {port : Port}
    (h : (events.foldl next empty).PaddleOn id port) :
    let hub := events.foldl next empty
    (∀ later : List Event, Along (Stays id port) hub later →
      let now := later.foldl next hub
      let reads := readsSince id 0 empty events
        + later.countP fun e => e.touch? (· == port) id = some .read
      now.readControl port &&& 0x3F = 0 →
        ∀ r : Operation, r.portRead? = some port →
        ∃ core v, now.device? id = some ⟨core, .paddle⟩
          ∧ (r.perform now).1 = .byte v
          ∧ Pin.tr.isHigh v = decide (reads % 2 = 0)
          ∧ (v &&& 0x0F).toNat = if reads % 2 = 0
            then (Paddle.position core).toNat / 16
              else (Paddle.position core).toNat % 16)
      ∧ (hub.readControl port &&& 0x3F = 0 → ∀ (r r' : Operation) (v : UInt8),
        r.portRead? = some port → r'.portRead? = some port →
        (r.perform hub).1 = .byte v → Pin.tr.isHigh v = true →
          ∀ between : List Event,
        Along (Rests id port) (hub.after r) between →
        let now := between.foldl next (hub.after r)
        now.readControl port &&& 0x3F = 0 →
          ∃ core v', hub.device? id = some ⟨core, .paddle⟩
            ∧ (r'.perform now).1 = .byte v'
            ∧ Pin.tr.isHigh v' = false
            ∧ (v &&& 0x0F).toNat * 16 + (v' &&& 0x0F).toNat
              = (Paddle.position core).toNat)
      ∧ (∀ core, (Paddle.position core).toNat = Paddle.knob core.x core.y)
      ∧ (∀ x x' y y', (x, y) ≠ offscreen → (x', y') ≠ offscreen → x ≤ x' →
        Paddle.knob x y ≤ Paddle.knob x' y')
      ∧ (∀ n < 256, ∃ x : Int, 0 ≤ x ∧ x ≤ 1279 ∧ ∀ y, Paddle.knob x y = n)
      ∧ ∀ x y : Int, Paddle.knob x y < 256
        ∧ 0 ≤ max 0 (min x 1279) * 256 ∧ max 0 (min x 1279) * 256 < 2 ^ 31 := by
  intro hub
  refine ⟨fun later hlater => ?_,
    fun hinputs r r' v hr hr' hv hhigh between hbetween => ?_,
    Paddle.toNat_position, fun _ _ _ _ => Paddle.knob_mono,
    fun _ => Paddle.exists_column,
    fun x y => ⟨Paddle.knob_lt x y, ?_⟩⟩
  · intro now reads hinputs r hr
    obtain ⟨hon, hreads⟩ := h.run (readsSince id 0 empty events) hlater
    obtain ⟨core, hcore⟩ := hon.paddle
    have hreached : ((events ++ later).foldl next empty).device? id
        = some ⟨core, .paddle⟩ := by
      rw [List.foldl_append]
      exact hcore
    -- the counter has the parity of all reads since the paddle was placed
    have hparity : core.counter % 2 = reads % 2 := by
      rw [turned_reached _ hreached, readsSince_append, hreads]
    obtain ⟨v, hreply, htr, hnibble⟩ := hon.read hcore hr hinputs
    rw [hparity] at htr hnibble
    exact ⟨core, v, hcore, hreply, htr, hnibble⟩
  · intro now hlater
    obtain ⟨core, hcore⟩ := h.paddle
    obtain ⟨v', hreply, htr, hwhole⟩ :=
      h.pair hcore hr hr' hinputs hv hhigh hbetween hlater
    exact ⟨core, v', hcore, hreply, htr, hwhole⟩
  · obtain ⟨hlow, hhigh⟩ := Paddle.column_le x
    omega

/-- A paddle in column 1000, whose button goes down between the two reads. A
device that is not there is refused on its port. -/
theorem paddle_in_halves_pressed :
    let events : List Event :=
      [.connectNew .two .paddle, .moveTo 3 1000 120, .readData .two,
        .resetDevices].map .operation
    let between : List Event :=
      [.updatePort .two (Button.pressed 1), .scanline, .readData .one,
        .moveTo 0 5 5,
        .writeData .two 0x00, .connect .ext 1, .connect .two 9].map .operation
    let hub := events.foldl next empty
    let now := between.foldl next (hub.after (.readData .two))
    ∃ v v', ((Operation.readData .two).perform hub).1 = .byte v
      ∧ ((Operation.readRegister 2).perform now).1 = .byte v'
      ∧ Pin.tr.isHigh v = true ∧ Pin.tr.isHigh v' = false
      ∧ (v &&& 0x0F).toNat * 16 + (v' &&& 0x0F).toNat = 0xC8 := by
  intro events between hub now
  have hthere : (hub.device? 3).any (fun d => d.kind = .paddle) = true := by
    decide +kernel
  obtain ⟨d, hd, hkind⟩ := (Option.any_eq_true _ _).1 hthere
  obtain ⟨core, rfl⟩ := Device.own_of_kind (of_decide_eq_true hkind)
  have hon : hub.PaddleOn 3 .two :=
    ⟨⟨core, hd⟩, by intro p; cases p <;> decide +kernel⟩
  obtain ⟨hhalves, hpair, -⟩ := paddle_in_halves events hon
  obtain ⟨-, v, -, hv, hhigh, -⟩ := hhalves [] trivial (by decide +kernel)
    (.readData .two) rfl
  have hreads : readsSince 3 0 empty events = 0 := by decide +kernel
  have htr : Pin.tr.isHigh v = true := by
    rw [hhigh, hreads]
    rfl
  have hbetween : Along (Rests 3 .two)
      (hub.after (.readData .two)) between := by
    decide +kernel
  obtain ⟨core', v', hcore', hv', hlow, hwhole⟩ :=
    hpair (by decide +kernel) (.readData .two) (.readRegister 2) v rfl rfl hv
      htr between hbetween (by decide +kernel)
  have hposition : (hub.device? 3).map (fun d => (Paddle.position d.core).toNat)
      = some 0xC8 := by
    decide +kernel
  rw [hcore'] at hposition
  exact ⟨v, v', hv, hv', htr, hlow, hwhole.trans (Option.some.inj hposition)⟩

end Hub

end ConsoleBoard.Controller
