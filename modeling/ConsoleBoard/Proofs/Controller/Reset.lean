/-
Hard resets.

A reset makes each device as new, and what a multitap has seen of others is all
that is left from before. It is shown its chained devices again when somebody
uses it at a port, so nothing comes of what it remembers: behind a reset, hubs
with the same wiring (`Hub.wiring`) have devices that differ at most in the
memory of multitaps (`Alike`), each event keeps them so (`Alike.act`), and
whatever is asked of the hubs, they give the same answer.

A host that writes to a multitap by itself, past the port, can see the old
memory in what the multitap drives then. As long as nobody does so, a multitap
that has not been used since the reset still has TH high and drives what each
one drives, so not even the lines of devices outside the ports differ.
-/
import ConsoleBoard.Proofs.Controller.Registers
import ConsoleBoard.Proofs.Controller.Sequence

namespace ConsoleBoard.Controller

-- =========================================================== alike devices

/-- Without what the device drives, and what is read of it. -/
def Core.undriven (core : Core) : Core :=
  { core with deviceData := 0xFF, output := 0xFF }

/-- What a multitap drove before is nothing to it when it answers again. -/
theorem TeamPlayer.refresh_undriven (tap : TeamPlayer) (core : Core) :
    Device.refresh (⟨core, .teamPlayer tap⟩ : Peripheral)
      = Device.refresh ⟨core.undriven, .teamPlayer tap⟩ := rfl

/-- What a multitap sees decides what it drives, and nothing else. -/
theorem TeamPlayer.undriven_answered (tap tap' : TeamPlayer) {core core' : Core}
    (h : core.undriven = core'.undriven) :
    (core.answered (tap.drive core)).undriven
      = (core'.answered (tap'.drive core')).undriven := by
  have hline : core.line .th = core'.line .th := by
    show core.undriven.line .th = core'.undriven.line .th
    rw [h]
  cases hth : core.line .th with
  | true =>
      rw [tap.drive_high hth, tap'.drive_high (hline.symm.trans hth)]
      exact congrArg (fun c : Core => { c with counter := 0 }) h
  | false =>
      rw [tap.drive_low hth, tap'.drive_low (hline.symm.trans hth)]
      exact congrArg (fun c : Core => { c with
          counter := TeamPlayer.place c }) h

/-- The devices are the same, or they are multitaps that have the same devices
chained and differ in what they have seen of them, and so in what they drive.
If they are `idle` as well, TH is high, and they drive the same. -/
inductive Alike (idle : Prop) : Peripheral → Peripheral → Prop
  | same (d : Peripheral) : Alike idle d d
  | taps {core core' : Core} {ports : Vector (Option Nat) 4}
      (seen seen' : Vector (Option Chained) 4)
      (hcore : core.undriven = core'.undriven)
      (hidle : idle → core = core' ∧ core.level .th = true) :
      Alike idle ⟨core, .teamPlayer ⟨ports, seen⟩⟩ ⟨core',
        .teamPlayer ⟨ports, seen'⟩⟩

namespace Alike

variable {idle : Prop} {d d' : Peripheral}

/-- Alike devices have one outline. -/
theorem outline (h : Alike idle d d') : d.outline = d'.outline := by
  cases h with
  | same => rfl
  | taps seen seen' hcore hidle =>
      have hbuttons := congrArg (·.buttons) hcore
      exact congrArg (Outline.mk ⟨.teamPlayer, ·⟩ _) hbuttons

theorem get (h : Alike idle d d') (slot : Hub.Slot) :
    slot.get d.core = slot.get d'.core := by
  cases h with
  | same => rfl
  | taps seen seen' hcore hidle =>
      have hslot := congrArg slot.get hcore
      cases slot <;> exact hslot

/-- An idle multitap differs in nothing. -/
theorem core (h : Alike idle d d') (hidle : idle) : d.core = d'.core := by
  cases h with
  | same => rfl
  | taps seen seen' hcore hboth => exact (hboth hidle).1

private theorem of_tap (htap : d.kind = .teamPlayer)
    (houtline : d.outline = d'.outline)
    (hcore : d.core.undriven = d'.core.undriven)
    (hidle : idle → d.core = d'.core ∧ d.core.level .th = true) :
    Alike idle d d' := by
  obtain ⟨core, own⟩ := d
  obtain ⟨core', own'⟩ := d'
  have hkind : own.kind = own'.kind := congrArg (·.kind) houtline
  obtain ⟨⟨ports, seen⟩, rfl⟩ := Model.eq_teamPlayer htap
  obtain ⟨⟨ports', seen'⟩, rfl⟩ := Model.eq_teamPlayer (hkind.symm.trans htap)
  have hlinks : ports.toList = ports'.toList := congrArg (·.links) houtline
  obtain rfl : ports = ports' := Vector.toList_inj.1 hlinks
  exact .taps seen seen' hcore hidle

/-- A change that does not go by what is driven, and does not move TH where that
matters. -/
theorem onCore (h : Alike idle d d') (change : Core → Core)
    (hundriven : ∀ core, (change core).undriven
      = (change core.undriven).undriven)
    (hlevel : idle → ∀ core, (change core).level .th = core.level .th) :
    Alike idle (d.onCore change) (d'.onCore change) := by
  cases h with
  | same => exact same _
  | taps seen seen' hcore hidle =>
      refine .taps seen seen' ?_ fun h => ?_
      · rw [hundriven, hcore, ← hundriven]
      · obtain ⟨hsame, hth⟩ := hidle h
        exact ⟨congrArg change hsame, (hlevel h _).trans hth⟩

theorem refresh (h : Alike idle d d') : Alike idle d.refresh d'.refresh := by
  cases h with
  | same => exact same _
  | @taps core core' ports seen seen' hcore hidle =>
      have hsensed : core.senseLines.undriven = core'.senseLines.undriven :=
        congrArg Core.senseLines hcore
      refine .taps seen seen' ?_ fun h => ?_
      · exact congrArg Core.latchLines
          (TeamPlayer.undriven_answered ⟨ports, seen⟩ ⟨ports, seen'⟩ hsensed)
      · obtain ⟨rfl, hth⟩ := hidle h
        have hline : core.senseLines.line .th = true := hth
        refine ⟨?_, hth⟩
        show (core.senseLines.answered
          (TeamPlayer.drive _ core.senseLines)).latchLines
          = (core.senseLines.answered
            (TeamPlayer.drive _ core.senseLines)).latchLines
        rw [TeamPlayer.drive_high _ hline, TeamPlayer.drive_high _ hline]

/-- Multitaps that are shown all their ports have the same memory. -/
theorem see_eq (h : Alike idle d d') {states : List (Option Chained)}
    (hstates : d.kind = .teamPlayer → states.length = TeamPlayer.portCount) :
    d.see states = d'.see states := by
  cases h with
  | same => rfl
  | @taps core core' ports seen seen' hcore hidle =>
      obtain ⟨all, rfl⟩ : ∃ all : Vector (Option Chained) 4, states
        = all.toList :=
        ⟨⟨states.toArray, hstates rfl⟩, rfl⟩
      rw [Device.see_tap rfl, Device.see_tap rfl, Device.observeFrom_tap,
        Device.observeFrom_tap]
      dsimp only
      rw [TeamPlayer.refresh_undriven _ core, hcore,
        ← TeamPlayer.refresh_undriven]

/-- A link on both sides keeps them alike. -/
theorem link (h : Alike idle d d') (port : Nat) (sub : Option Nat) :
    Alike idle (d.link port sub) (d'.link port sub) := by
  cases h with
  | same => exact same _
  | taps seen seen' hcore hidle =>
      refine of_tap ?_ ?_ ?_ ?_
      · exact congrArg (·.kind) (Device.outline_link _ port sub)
      · rw [Device.outline_link, Device.outline_link,
          (taps seen seen' hcore hidle).outline]
      all_goals
        unfold Device.link
        rw [Device.core_chain, Device.core_chain]
      · exact hcore
      · exact hidle

/-- A reset leaves nothing else to differ in. -/
theorem reset (hkind : d.kind = d'.kind) (hchained : d.chained = d'.chained) :
    Alike idle d.reset d'.reset := by
  have hcore : (d.onCore Core.resetSystem).resetState.core
      = (d'.onCore Core.resetSystem).resetState.core := rfl
  by_cases htap : d.kind = .teamPlayer
  · have hhigh : (d.onCore Core.resetSystem).resetState.core.level .th
        = true := by
      show Pin.th.isHigh (~~~0x00 ||| 0xFF) = true
      decide
    refine refresh (of_tap htap ?_ (congrArg Core.undriven hcore) fun _ =>
      ⟨hcore, hhigh⟩)
    show Outline.mk ⟨d.kind, _⟩ d.chained = Outline.mk ⟨d'.kind, _⟩ d'.chained
    rw [hkind, hchained]
    rfl
  · obtain ⟨core, own⟩ := d
    obtain ⟨core', own'⟩ := d'
    have hown : own = own' := by
      cases own with
      | teamPlayer tap => exact absurd rfl htap
      | none | twoButton | threeButton | sixButton | paddle | coleco =>
          cases own' with
          | _ => first | rfl | cases hkind
    subst hown
    exact same _

end Alike

-- ================================================================ the acts

/-- A multitap is shown all its ports before it is told something. Only one that
is not `idle` may be written to without. -/
def Device.Act.Informs (idle : Prop) : Device.Act → Prop
  | link _ _ states | see states | access states _ =>
      states.length = TeamPlayer.portCount
  | call (.writeControl _) | call (.writeData _) => ¬idle
  | _ => True

namespace Alike

variable {idle : Prop} {d d' : Peripheral}

/-- A call on both sides keeps them alike. -/
theorem call (h : Alike idle d d') (c : Device.Call)
    (hc : (Device.Act.call c).Informs idle) :
    Alike idle (c.apply d) (c.apply d') := by
  cases c with
  | writeControl v =>
      exact (h.onCore (fun core => { core with control := v }) (fun _ => rfl)
        fun hidle => absurd hidle hc).refresh
  | writeData v =>
      exact (h.onCore (fun core => { core with systemData := v }) (fun _ => rfl)
        fun hidle => absurd hidle hc).refresh
  | update buttons =>
      exact (h.onCore (fun core => { core with
            buttonsBefore := core.buttons, buttons })
        (fun _ => rfl) fun _ _ => rfl).refresh
  | moveTo x y =>
      exact (h.onCore (fun core => { core with x, y }) (fun _ => rfl) fun _ _ =>
        rfl).refresh
  | setPin58 v =>
      exact (h.onCore (fun core => { core with
            pin58 := v &&& 0x03 }) (fun _ => rfl)
        fun _ _ => rfl).refresh
  | refresh => exact h.refresh
  -- a read may clock a paddle, but a multitap pays no attention to it
  | noteRead =>
      cases h with
      | same => exact same _
      | taps seen seen' hcore hidle => exact .taps seen seen' hcore hidle
  | scanline =>
      cases h with
      | same => exact same _
      | taps seen seen' hcore hidle =>
          exact (taps seen seen' hcore hidle).onCore
            (fun core => { core with
                scanlines := saturated (core.scanlines + 1) })
            (fun _ => rfl) fun _ _ => rfl
  | reset =>
      exact reset (congrArg (·.kind) h.outline) (congrArg (·.links) h.outline)

/-- An act that is told all of its ports keeps devices alike. -/
theorem act (h : Alike idle d d') {a : Device.Act} (ha : a.Informs idle) :
    Alike idle (a.apply d) (a.apply d') := by
  cases a with
  | place kind => exact same _
  | link port sub states =>
      show Alike idle ((d.link port sub).see states)
        ((d'.link port sub).see states)
      rw [(h.link port sub).see_eq fun _ => ha]
      exact same _
  | see states =>
      show Alike idle (d.see states) (d'.see states)
      rw [h.see_eq fun _ => ha]
      exact same _
  | access states c =>
      show Alike idle (c.apply (d.see states)) (c.apply (d'.see states))
      rw [h.see_eq fun _ => ha]
      exact same _
  | press buttons =>
      have hdpad : d.hasDpad = d'.hasDpad :=
        Device.hasDpad_eq (congrArg (·.kind) h.outline)
      show Alike idle (d.update _) (d'.update _)
      rw [hdpad]
      exact h.call (.update _) trivial
  | call c => exact h.call c ha
  | sendSerial v =>
      exact h.onCore (fun core => { core with serialTx := v })
        (fun _ => rfl) fun _ _ => rfl
  | setSerial v =>
      exact h.onCore (fun core => { core with serialControl := v })
        (fun _ => rfl) fun _ _ => rfl
  | restart =>
      exact (h.onCore Core.resetCounters (fun _ => rfl) fun _ _ => rfl).refresh

/-- Devices that are the same stay so whatever is done to them, so only
multitaps must be informed. -/
theorem acted (h : Alike idle d d') {acts : List Device.Act}
    (hacts : d.kind = .teamPlayer → ∀ a ∈ acts, a.Informs idle) :
    Alike idle (d.acted acts) (d'.acted acts) := by
  by_cases htap : d.kind = .teamPlayer
  · exact List.foldl_rel h fun a ha _ _ hd => hd.act (hacts htap a ha)
  · cases h with
    | same => exact same _
    | taps => exact absurd rfl htap

end Alike

theorem Device.length_links {d : Peripheral} (h : d.kind = .teamPlayer) :
    d.outline.links.length = TeamPlayer.portCount := by
  obtain ⟨core, own⟩ := d
  obtain ⟨tap, rfl⟩ := Model.eq_teamPlayer h
  exact Vector.length_toList

namespace Layout

variable {l : Layout} {id : Nat} {x : Outline}

theorem length_seenBy (h : l.devices[id]? = some x) :
    (l.seenBy id).length = x.links.length := by
  unfold seenBy
  rw [h]
  exact List.length_map _

/-- Whatever a hub does to a multitap, it shows it all its ports first. -/
theorem informs_acts {idle : Prop} (h : l.devices[id]? = some x)
    (hlinks : x.links.length = TeamPlayer.portCount) (op : Hub.Operation) :
    ∀ a ∈ l.acts id op, a.Informs idle := by
  have hseen : (l.seenBy id).length = TeamPlayer.portCount :=
    (length_seenBy h).trans hlinks
  cases op with
  | add _ | connect _ _ | connectNew _ _ | readControl _ =>
      exact fun a ha => nomatch ha
  | replace _ _ | updateButtons _ _ | updatePort _ _ | moveTo _ _ _ =>
      exact Device.Act.forall_only fun _ => trivial
  | attach tap port sub =>
      unfold acts
      dsimp only
      split
      · exact fun a ha => nomatch ha
      · -- the layout that is shown has the new link already
        refine Device.Act.forall_only ?_
        rintro rfl
        have hlinked : (l.linked tap port sub).devices[tap]?
            = some { x with links := x.links.set port sub } := by
          unfold linked
          rw [Array.getElem?_modify, if_pos rfl, h]
          rfl
        exact (length_seenBy hlinked).trans ((List.length_set ..).trans hlinks)
  | scanline | resetDevices =>
      intro a ha
      obtain rfl := List.mem_singleton.1 ha
      trivial
  | reset =>
      have hreleased : l.released.devices[id]? = some { x with
          buttons := Button.released } := by
        unfold released
        rw [Array.getElem?_map, h]
        rfl
      intro a ha
      rcases List.mem_cons.1 ha with rfl | hsee
      · trivial
      · obtain ⟨port, -, hport⟩ := List.mem_flatMap.1 hsee
        exact Device.Act.forall_only
          (fun _ => (length_seenBy hreleased).trans hlinks) a hport
  | readData _ | writeData _ _ | writeControl _ _ =>
      exact Device.Act.forall_only fun _ => hseen
  | readRegister index =>
      unfold acts
      dsimp only
      split
      · exact Device.Act.forall_only fun _ => hseen
      · exact fun a ha => nomatch ha
  | writeRegister index v =>
      unfold acts
      dsimp only
      split
      · exact Device.Act.forall_only fun _ => hseen
      · exact Device.Act.forall_only fun _ => hseen
      · exact Device.Act.forall_only fun _ => trivial
      · exact Device.Act.forall_only fun _ => trivial
      · exact fun a ha => nomatch ha

end Layout

namespace Hub

/-- The host writes to a device by itself, past the ports. -/
def Event.Bypasses : Event → Prop
  | device _ (.writeControl _) | device _ (.writeData _) => True
  | _ => False

/-- Through the hub a multitap is always told all of its ports. -/
private theorem informs_eventActs {idle : Prop} {hub : Hub} {id : Nat}
    {d : Peripheral} (hd : hub.device? id = some d)
    (htap : d.kind = .teamPlayer) {e : Event} (he : idle → ¬e.Bypasses) :
    ∀ a ∈ hub.layout.eventActs id e, a.Informs idle := by
  have houtline : hub.layout.devices[id]? = some d.outline := by
    rw [devices_layout, hd]
    rfl
  cases e with
  | operation op =>
      exact Layout.informs_acts houtline (Device.length_links htap) op
  | setVersion v => exact fun a ha => nomatch ha
  | device target c =>
      refine Device.Act.forall_only fun _ => ?_
      cases c with
      | writeControl v | writeData v => exact fun hidle => he hidle trivial
      | update _ | moveTo _ _ | setPin58 _ | refresh | noteRead | scanline
      | reset => trivial

-- ================================================================ the hubs

/-- What a reset keeps of a hub. -/
structure Wiring where
  devices : Array (Kind × List (Option Nat))
  ports : Vector Nat 3
  version : UInt8
deriving DecidableEq

def wiring (hub : Hub) : Wiring where
  devices := hub.devices.map fun d => (d.kind, d.chained)
  ports := hub.ports
  version := hub.version

private theorem devices_wiring (hub : Hub) (id : Nat) :
    hub.wiring.devices[id]? = (hub.device? id).map fun d =>
      (d.kind, d.chained) :=
  Array.getElem?_map

section Wired

variable {idle : Prop} {hub hub' : Hub}

/-- Released layouts are read off the wiring. -/
private theorem released_eq (h : hub.wiring = hub'.wiring) :
    hub.layout.released = hub'.layout.released := by
  have hof : ∀ hub : Hub, hub.layout.released
      = ⟨hub.wiring.devices.map fun x => ⟨⟨x.1, Button.released⟩, x.2⟩,
        hub.wiring.ports⟩ := by
    intro hub
    unfold layout Layout.released wiring
    rw [Array.map_map, Array.map_map]
    rfl
  rw [hof, hof, h]

/-- Behind resets, hubs with one wiring have alike devices. -/
private theorem paired_reset (h : hub.wiring = hub'.wiring) :
    Paired (fun _ => Alike idle) hub.reset hub'.reset := by
  obtain ⟨hports, hversion⟩ := SameFrame.reset hub
  obtain ⟨hports', hversion'⟩ := SameFrame.reset hub'
  refine ⟨?_, ?_, fun id => ?_⟩
  · intro port
    rw [hports, hports']
    exact congrArg (fun w : Wiring => w.ports.get port.index) h
  · rw [hversion, hversion']
    exact congrArg (·.version) h
  have hacts : hub.layout.acts id .reset = hub'.layout.acts id .reset := by
    have hport : ∀ port, hub.layout.portDevice port
        = hub'.layout.portDevice port := fun port =>
      congrArg (fun w : Wiring => w.ports.get port.index) h
    simp only [Layout.acts, released_eq h, hport]
  have hwired : hub.wiring.devices[id]? = hub'.wiring.devices[id]? := by rw [h]
  rw [devices_wiring, devices_wiring] at hwired
  rw [device?_reset, device?_reset, ← hacts]
  cases hd : hub.device? id with
  | none =>
      rw [hd] at hwired
      rw [Option.map_eq_none_iff.1 hwired.symm]
      exact .none
  | some d =>
      rw [hd] at hwired
      obtain ⟨d', hd', hpair⟩ := Option.map_eq_some_iff.1 hwired.symm
      obtain ⟨hkind, hchained⟩ := Prod.mk.inj hpair
      rw [hd']
      -- the first act is the reset itself, and looks follow
      refine .some
        (Alike.acted (.reset hkind.symm hchained.symm) fun htap a ha => ?_)
      have hinforms := informs_eventActs hd htap (e := .operation .reset)
        (fun (_ : idle) hbypasses => hbypasses)
      exact hinforms a (List.mem_cons_of_mem _ ha)

/-- An event on both hubs keeps their devices alike. -/
theorem Paired.next_alike (h : Paired (fun _ => Alike idle) hub hub')
    {e : Event} (he : idle → ¬e.Bypasses) :
    Paired (fun _ => Alike idle) (hub.next e) (hub'.next e) :=
  Paired.next (fun _ => .same) (fun _ _ _ hd => hd.outline)
    (fun _ _ _ hdevice hd => hd.acted fun htap =>
      informs_eventActs hdevice htap he) h

/-- A port's field is the same on both hubs. -/
private theorem portField_eq (h : Paired (fun _ => Alike idle) hub hub')
    (port : Port) (slot : Slot) :
    hub.portField port slot.get = hub'.portField port slot.get := by
  have hget : (hub.device? (hub.portDevice port)).map (fun d => slot.get d.core)
      = (hub'.device? (hub.portDevice port)).map fun d => slot.get d.core :=
    h.map_eq fun _ _ _ hd => hd.get slot
  unfold portField
  rw [← h.portDevice port, hget]

/-- A read begins with a look of the device at its own. -/
theorem readData_see (hub : Hub) (port : Port) :
    (hub.readData port).1
      = ((hub.device? (hub.portDevice port)).map fun d =>
          (d.see (hub.layout.seenBy (hub.portDevice port))).noteRead.read).getD
            0xFF := by
  have hread := device?_access hub port .noteRead (hub.portDevice port)
  unfold Device.Act.only at hread
  rw [if_pos rfl] at hread
  show (((Hub.modify _ _ _).device? _).map Device.read).getD 0xFF = _
  rw [show Hub.device? (Hub.modify _ _ Device.noteRead) _ = _ from hread,
    Option.map_map]
  rfl

private theorem readData_eq (h : Paired (fun _ => Alike idle) hub hub')
    (port : Port) :
    (hub.readData port).1 = (hub'.readData port).1 := by
  have hlayout : hub.layout = hub'.layout := h.layout fun _ _ _ hd => hd.outline
  rw [readData_see, readData_see, ← h.portDevice port, ← hlayout]
  refine congrArg (Option.getD · 0xFF) ?_
  refine h.map_eq fun d d' hdevice hd => ?_
  have hsee : d.see (hub.layout.seenBy (hub.portDevice port))
      = d'.see (hub.layout.seenBy (hub.portDevice port)) :=
        hd.see_eq fun htap => by
    have houtline : hub.layout.devices[hub.portDevice port]?
        = some d.outline := by
      rw [devices_layout, hdevice]
      rfl
    exact (Layout.length_seenBy houtline).trans (Device.length_links htap)
  rw [hsee]

private theorem shows_alike (h : Paired (fun _ => Alike idle) hub hub')
    (r : Register) :
    hub.shows r = hub'.shows r := by
  have hown : ∀ {port : Port}, r.port? = some port →
      hub.shows r = hub'.shows r :=
    fun {port} hr =>
      shows_eq hr (fun slot => portField_eq h port slot) (readData_eq h port)
  cases r with
  | version => exact h.version
  | data port | control port | transmit port | receive port
  | serialControl port => exact hown rfl

/-- Whatever is asked of the hubs, they answer the same. -/
theorem reply_eq (h : Paired (fun _ => Alike idle) hub hub') (e : Event) :
    (e.perform hub).1 = (e.perform hub').1 := by
  have hlayout : hub.layout = hub'.layout := h.layout fun _ _ _ hd => hd.outline
  have hcount : hub.devices.size = hub'.devices.size :=
    h.deviceCount fun _ _ _ hd => hd.outline
  -- a refusal for an unknown number goes by how many devices there are
  have hattempt : ∀ (id : Nat) (changed changed' : Hub),
      (hub.attempt
          (if id < hub.devices.size then .ok changed
            else .error (.invalidDevice id))).1
        = (hub'.attempt
            (if id < hub'.devices.size then .ok changed'
              else .error (.invalidDevice id))).1 := by
    intro id changed changed'
    rw [← hcount]
    split <;> rfl
  cases e with
  | setVersion _ | device _ _ => rfl
  | operation op =>
      cases op with
      | add _ | connectNew _ _ => exact congrArg Reply.id hcount
      | replace id _ | connect _ id | updateButtons id _ | moveTo id _ _ =>
          exact hattempt id _ _
      | attach tap port sub =>
          show (hub.attempt (hub.attach tap port sub)).1
            = (hub'.attempt (hub'.attach tap port sub)).1
          rw [attach_eq, attach_eq, ← hlayout]
          cases hub.layout.refusal tap port sub <;> rfl
      | updatePort _ _ | scanline | reset | resetDevices | writeData _ _
      | writeControl _ _ | writeRegister _ _ => rfl
      | readData port => exact congrArg Reply.byte (readData_eq h port)
      | readControl port =>
          exact congrArg Reply.byte (portField_eq h port .control)
      | readRegister index =>
          show Reply.byte (hub.readRegister index).1
            = Reply.byte (hub'.readRegister index).1
          rcases Nat.lt_or_ge index registerCount with hindex | hindex
          · have hplace := index_of_registers (List.getElem?_eq_getElem hindex)
            rw [hplace]
            exact congrArg Reply.byte (shows_alike h _)
          · rw [(hub.open_bus hindex 0).1, (hub'.open_bus hindex 0).1]

/-- What is left to differ in is no part of the wiring. -/
theorem wiring_eq (h : Paired (fun _ => Alike idle) hub hub') :
    hub.wiring = hub'.wiring := by
  have hdevices : hub.wiring.devices = hub'.wiring.devices :=
    Array.ext_getElem? fun id => by
    rw [devices_wiring, devices_wiring]
    exact h.map_eq fun _ _ _ hd =>
      congrArg (fun x : Outline => (x.kind, x.links)) hd.outline
  show Wiring.mk hub.wiring.devices hub.ports hub.version
    = Wiring.mk hub'.wiring.devices hub'.ports hub'.version
  rw [hdevices, ports_ext h.portDevice, h.version]

/-- Events on both hubs keep their devices alike. -/
theorem Paired.run_alike (h : Paired (fun _ => Alike idle) hub hub')
    {events : List Event} (hevents : idle → ∀ e ∈ events, ¬e.Bypasses) :
    Paired (fun _ => Alike idle) (events.foldl Hub.next hub)
      (events.foldl Hub.next hub') := by
  induction events generalizing hub hub' with
  | nil => exact h
  | cons e rest ih =>
      refine ih (h.next_alike fun hidle =>
        hevents hidle e List.mem_cons_self) ?_
      exact fun hidle e' he' => hevents hidle e' (List.mem_cons_of_mem _ he')

end Wired

/-- What a hub answers to events, one after the other. -/
def replies (hub : Hub) : List Event → List Reply
  | [] => []
  | e :: rest => (e.perform hub).1 :: replies (hub.next e) rest

/-- The same events get the same replies. -/
private theorem replies_eq {hub hub' : Hub}
    (h : Paired (fun _ => Alike False) hub hub') (events : List Event) :
    hub.replies events = hub'.replies events := by
  induction events generalizing hub hub' with
  | nil => rfl
  | cons e rest ih =>
      unfold replies
      rw [reply_eq h e, ih (h.next_alike False.elim)]

/-- A hard reset forgets all that has happened. Behind it, hubs with the same
wiring answer any events the same, read the same at all ports and registers
and have the same wiring again. And unless a host writes to a device past the
ports, the cores of all devices are the same, also of those on no port. -/
theorem reset_forgets {hub hub' : Hub} (h : hub.wiring = hub'.wiring)
    (events : List Event) :
    let later := events.foldl next hub.reset
    let later' := events.foldl next hub'.reset
    hub.reset.replies events = hub'.reset.replies events
      ∧ (∀ port, (later.readData port).1 = (later'.readData port).1
        ∧ later.readControl port = later'.readControl port)
      ∧ (∀ index, (later.readRegister index).1 = (later'.readRegister index).1)
      ∧ later.wiring = later'.wiring
      ∧ ((∀ e ∈ events, ¬e.Bypasses) →
        ∀ id, (later.device? id).map Device.core
          = (later'.device? id).map Device.core) := by
  intro later later'
  have hreset : Paired (fun _ => Alike False) hub.reset hub'.reset :=
    paired_reset h
  have hlater : Paired (fun _ => Alike False) later later' :=
    hreset.run_alike False.elim
  refine ⟨replies_eq hreset events, fun port => ⟨readData_eq hlater port, ?_⟩,
    fun index => ?_,
    wiring_eq hlater, fun hevents id => ?_⟩
  · exact portField_eq hlater port .control
  · exact Reply.byte.inj (reply_eq hlater (.operation (.readRegister index)))
  · have hidle : Paired (fun _ => Alike True) later later' :=
      (paired_reset h).run_alike fun _ => hevents
    exact hidle.map_eq fun _ _ _ hd => hd.core trivial

/-- A multitap on port one, with a device of some kind chained to it. -/
def tapWith (kind : Kind) : Hub :=
  [Operation.connectNew .one .teamPlayer, .add kind,
    .attach 3 0 (some 4)].foldl Hub.after empty

/-- A multitap that was taken off its port after it had seen a pressed pad, and
one that was never used. Behind a reset, both show a released pad. -/
theorem reset_forgets_tap :
    let used := [Operation.updateButtons 4 (Button.pressed Button.a),
      .writeControl .one 0x60,
      .writeData .one 0x20, .readData .one,
      .connect .one 0].foldl Hub.after (tapWith .sixButton)
    let unused := (tapWith .sixButton).after (.connect .one 0)
    let events :=
      [Event.operation (.connect .one 3), .operation (.writeControl .one 0x60),
        .operation (.writeData .one 0x60), .operation (.writeData .one 0x20)]
      ++ [0x00, 0x20, 0x00, 0x20, 0x00, 0x20, 0x00,
        0x20].map (Event.operation <| .writeData .one ·)
      ++ [Event.operation (.readData .one)]
    used.wiring = unused.wiring ∧ used.reset.replies events
      = unused.reset.replies events
      ∧ (unused.reset.replies events).getLast? = some (.byte 0x3F) := by
  intro used unused events
  have hwiring : used.wiring = unused.wiring := by decide +kernel
  obtain ⟨hreplies, -⟩ := reset_forgets hwiring events
  exact ⟨hwiring, hreplies, by decide +kernel⟩

/-- Without a port, and written to directly, a multitap shows what it saw before
the reset. -/
example :
    let used :=
      [Operation.replace 4 .threeButton, .connect .one 0].foldl Hub.after
        (tapWith .sixButton)
    let unused := (tapWith .threeButton).after (.connect .one 0)
    let events :=
      [Device.Call.writeControl 0x60, .writeData 0x20, .writeData 0x00,
      .writeData 0x20, .writeData 0x00].map (Event.device 3)
    used.wiring = unused.wiring
      ∧ ((events.foldl next used.reset).device? 3).map Device.read
        ≠ ((events.foldl next unused.reset).device? 3).map Device.read := by
  decide +kernel

end Hub

end ConsoleBoard.Controller
