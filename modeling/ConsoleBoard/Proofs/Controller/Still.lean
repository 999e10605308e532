/-
Operations that move no line.

Most of what a host does, and every read of the console, leaves the registers
of all devices as they are (`Operation.IsQuiet`). Devices are refreshed on
the way, some of them several times, but a refresh on the same registers sees
no edge: a settled device stays settled, and a multitap in the middle of a
sequence keeps its place (`Still`). `still_after` says it of each device
behind each quiet operation.

# Which operations

The condition is on the operation and not on the hub: no register is written,
and nothing is exchanged or reset. Their acts are quiet one by one
(`Layout.quiet_acts`), a quiet act moves no line (`Still.act`), and being still
is transitive (`Still.trans`), so a list of acts needs no argument of its own.
-/
import ConsoleBoard.Proofs.Controller.Effect
import ConsoleBoard.Proofs.Controller.Sequence

namespace ConsoleBoard.Controller

-- ============================================================== one device

/-- What a device is after a change that leaves its registers alone: none of its
lines has moved, so a multitap in the middle of an acquisition stays where
it is. -/
structure Still (d d' : Peripheral) : Prop where
  kind : d'.kind = d.kind
  control : d'.core.control = d.core.control
  data : d'.core.systemData = d.core.systemData
  settled : d.core.Settled → d'.core.Settled
  counter : d.kind = .teamPlayer → d.core.Settled → d.core.level .th = false →
    d'.core.counter = d.core.counter

namespace Still

variable {d d' d'' : Peripheral}

theorem level (h : Still d d') (pin : Pin) :
    d'.core.level pin = d.core.level pin := by
  unfold Core.level
  rw [h.control, h.data]

theorem refl (d : Peripheral) : Still d d :=
  ⟨rfl, rfl, rfl, id, fun _ _ _ => rfl⟩

theorem trans (h : Still d d') (h' : Still d' d'') : Still d d'' where
  kind := h'.kind.trans h.kind
  control := h'.control.trans h.control
  data := h'.data.trans h.data
  settled hd := h'.settled (h.settled hd)
  counter hkind hd hth :=
    (h'.counter (h.kind.trans hkind) (h.settled hd)
      ((h.level .th).trans hth)).trans (h.counter hkind hd hth)

/-- A refresh on the same registers sees no edge. -/
theorem refresh {core : Core} {own : Model} (hkind : own.kind = d.own.kind)
    (hcontrol : core.control = d.core.control)
    (hdata : core.systemData = d.core.systemData)
    (hcounter : core.counter = d.core.counter)
    (hbefore : core.linesBefore = d.core.linesBefore) :
    Still d (Device.refresh ⟨core, own⟩) where
  kind := hkind
  control := hcontrol
  data := hdata
  settled _ := Device.settled_refresh _
  counter htap hd hth := by
    obtain ⟨tap, rfl⟩ := Model.eq_teamPlayer (hkind.trans htap)
    have hlevel : ∀ pin, core.level pin = d.core.level pin := fun pin => by
      unfold Core.level
      rw [hcontrol, hdata]
    have hlow : core.senseLines.line .th = false := (hlevel .th).trans hth
    show (tap.drive core.senseLines).counter = _
    rw [tap.drive_low hlow,
      TeamPlayer.place_of_level hd hbefore hlevel, hcounter]

theorem scanline (d : Peripheral) : Still d d.scanline := by
  unfold Device.scanline
  split
  next hrestarts =>
    refine ⟨rfl, rfl, rfl,
      fun hd => Device.settled_respond ⟨hd.lines, hd.before, hd.output⟩,
      fun htap => ?_⟩
    obtain ⟨tap, hown⟩ := Model.eq_teamPlayer htap
    rw [hown] at hrestarts
    cases hrestarts
  next =>
    exact ⟨rfl, rfl, rfl, fun hd => ⟨hd.lines, hd.before, hd.output⟩,
      fun _ _ _ => rfl⟩

theorem noteRead (d : Peripheral) : Still d d.noteRead := by
  unfold Device.noteRead
  split
  next htoggles =>
    refine ⟨rfl, rfl, rfl,
      fun hd => Device.settled_respond ⟨hd.lines, hd.before, hd.output⟩,
      fun htap => ?_⟩
    obtain ⟨tap, hown⟩ := Model.eq_teamPlayer htap
    rw [hown] at htoggles
    cases htoggles
  next => exact refl d

theorem update (d : Peripheral) (buttons : UInt32) :
    Still d (d.update buttons) :=
  refresh rfl rfl rfl rfl rfl

theorem moveTo (d : Peripheral) (x y : Int) : Still d (d.moveTo x y) :=
  refresh rfl rfl rfl rfl rfl

theorem setSerialTx (d : Peripheral) (v : UInt8) : Still d (d.setSerialTx v) :=
  ⟨rfl, rfl, rfl, fun hd => ⟨hd.lines, hd.before, hd.output⟩, fun _ _ _ => rfl⟩

theorem setSerialControl (d : Peripheral) (v : UInt8) :
    Still d (d.setSerialControl v) :=
  ⟨rfl, rfl, rfl, fun hd => ⟨hd.lines, hd.before, hd.output⟩, fun _ _ _ => rfl⟩

/-- What is chained to a device is no matter of its core. -/
theorem of_core (hkind : d'.kind = d.kind) (hcore : d'.core = d.core) :
    Still d d' := by
  refine ⟨hkind, ?_, ?_, ?_, fun _ _ _ => ?_⟩
  · rw [hcore]
  · rw [hcore]
  · rw [hcore]
    exact id
  · rw [hcore]

theorem link (d : Peripheral) (port : Nat) (sub : Option Nat) :
    Still d (d.link port sub) :=
  of_core (congrArg (·.kind) (d.outline_link port sub)) (d.core_chain port sub)

/-- What a multitap sees of its devices is its own affair. -/
theorem see (d : Peripheral) (states : List (Option Chained)) :
    Still d (d.see states) := by
  have hcore := d.core_observeFrom 0 states
  have hkind : (Hub.observeFrom d 0 states).kind = d.kind :=
    congrArg (·.kind) (d.outline_observeFrom 0 states)
  unfold Device.see
  split
  · exact refl d
  · exact .trans (of_core hkind hcore) (refresh rfl rfl rfl rfl rfl)

end Still

-- ============================================================== quiet acts

/-- The call leaves the registers of the device alone. -/
def Device.Call.IsQuiet : Device.Call → Prop
  | writeControl _ | writeData _ | reset => False
  | _ => True

def Device.Act.IsQuiet : Device.Act → Prop
  | place _ | restart => False
  | access _ c | call c => c.IsQuiet
  | _ => True

namespace Still

variable {d : Peripheral}

/-- A quiet call moves no line. -/
theorem call {c : Device.Call} (hc : c.IsQuiet) (d : Peripheral) :
    Still d (c.apply d) := by
  cases c with
  | writeControl _ | writeData _ | reset => exact hc.elim
  | update buttons => exact update d buttons
  | moveTo x y => exact moveTo d x y
  | setPin58 _ | refresh => exact refresh rfl rfl rfl rfl rfl
  | noteRead => exact noteRead d
  | scanline => exact scanline d

/-- A quiet act moves no line. -/
theorem act {a : Device.Act} (ha : a.IsQuiet) (d : Peripheral) :
    Still d (a.apply d) := by
  cases a with
  | place _ | restart => exact ha.elim
  | link port sub states => exact .trans (link d port sub) (see _ states)
  | see states => exact see d states
  | access states c => exact .trans (see d states) (call ha _)
  | press buttons => exact update d _
  | call c => exact call ha d
  | sendSerial v => exact setSerialTx d v
  | setSerial v => exact setSerialControl d v

/-- Quiet acts, one after another, move no line. -/
theorem acted {acts : List Device.Act} (hacts : ∀ a ∈ acts, a.IsQuiet)
    (d : Peripheral) :
    Still d (d.acted acts) :=
  List.foldlRecOn acts _ (refl d) fun _ hd a ha =>
    .trans hd (act (hacts a ha) _)

end Still

-- ======================================================== quiet operations

/-- The operation leaves the registers of every device alone. -/
def Hub.Operation.IsQuiet : Hub.Operation → Prop
  | replace _ _ | reset | resetDevices | writeData _ _ | writeControl _ _
  | writeRegister _ _ =>
      False
  | _ => True

/-- A quiet operation makes quiet acts only. -/
theorem Layout.quiet_acts {op : Hub.Operation} (hop : op.IsQuiet) (l : Layout)
    (id : Nat) :
    ∀ a ∈ l.acts id op, a.IsQuiet := by
  cases op with
  | replace _ _ | reset | resetDevices | writeData _ _ | writeControl _ _
  | writeRegister _ _ =>
      exact hop.elim
  | add _ | connect _ _ | connectNew _ _ | readControl _ =>
      exact fun a ha => nomatch ha
  | attach tap port sub =>
      unfold acts
      dsimp only
      split
      · exact fun a ha => nomatch ha
      · exact Device.Act.forall_only fun _ => trivial
  | updateButtons _ _ | updatePort _ _ | moveTo _ _ _ | readData _ =>
      exact Device.Act.forall_only fun _ => trivial
  | scanline =>
      intro a ha
      obtain rfl := List.mem_singleton.1 ha
      trivial
  | readRegister index =>
      unfold acts
      dsimp only
      split
      · exact Device.Act.forall_only fun _ => trivial
      · exact fun a ha => nomatch ha

namespace Hub

/-- A quiet operation leaves every device on its lines. -/
theorem still_after {op : Operation} (hop : op.IsQuiet) (hub : Hub) (id : Nat)
    (d : Peripheral) (hd : hub.device? id = some d) :
    ∃ d', (hub.after op).device? id = some d' ∧ Still d d' :=
  ⟨_, device?_after_some hd op, .acted (hub.layout.quiet_acts hop id) d⟩

end Hub

end ConsoleBoard.Controller
