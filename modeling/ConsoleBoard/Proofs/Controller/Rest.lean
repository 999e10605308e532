/-
Devices rest between events.

A device answers when it is written to, pressed or read, and some are not
asked again for a long time. What it drives then is still its answer, since
an answer given twice is the same (`drive_latched`): the edges that it went
by are past, and of what it drove before a protocol reads nothing back. So a
device at rest (`AtRest`) is a fixpoint of `Device.refresh`, each act of a hub
leads from rest to rest, and what the console reads can be computed from
registers, inputs and counters alone (`Core.afresh`).

# From answer to rest

`drive_latched` is the heart: an answer that has been latched is given again
when it is asked for again. It is proved protocol by protocol; what follows is
common to all of them. Calls end in an answer (`AtRest.of_respond`) or in a
refresh (`AtRest.of_refresh`), or change what no answer looks at.
-/
import ConsoleBoard.Proofs.Controller.Effect
import ConsoleBoard.Proofs.Controller.Sequence

namespace ConsoleBoard.Controller

-- =========================================================== settled lines

namespace Core.Settled

variable {core : Core}

theorem senseLines (h : core.Settled) : core.senseLines = core := by
  unfold Core.senseLines
  rw [← h.lines]

theorem latchLines (h : core.Settled) : core.latchLines = core :=
  congrArg (fun v => { core with linesBefore := v }) h.before.symm

/-- Behind settled lines the output is what it was. -/
theorem refreshOutput (h : core.Settled) : core.refreshOutput = core := by
  unfold Core.refreshOutput
  rw [← h.output]

end Core.Settled

-- ============================================================== the answer

/-- A core made again of its counters, registers and inputs, on the levels that
its registers drive. Nothing is left in it of what was driven, seen or read
before. -/
def Core.afresh (core : Core) : Core :=
  { Core.fresh with
    counter := core.counter
    scanlines := core.scanlines
    control := core.control
    systemData := core.systemData
    buttons := core.buttons
    x := core.x
    y := core.y
    pin58 := core.pin58 }.senseLines.latchLines

namespace Model

/-- A device that is asked again, after its edges, answers the same. -/
theorem drive_latched (m : Model) (core : Core) :
    m.drive (core.answered (m.drive core)).latchLines = m.drive core := by
  -- latched lines are their own record: no edge in sight
  have hrose : ∀ (drive : Drive) (pin : Pin),
      (core.answered drive).latchLines.rose pin = false :=
        fun _ => Core.not_rose rfl
  have hfell : ∀ (drive : Drive) (pin : Pin),
      (core.answered drive).latchLines.fell pin = false :=
        fun _ => Core.not_fell rfl
  have hline : ∀ (drive : Drive) (pin : Pin),
      (core.answered drive).latchLines.line pin = core.line pin :=
        fun _ _ => rfl
  cases m with
  | none | twoButton | threeButton | paddle | coleco => rfl
  | sixButton =>
      show Pad.sixButtonDrive _ = _
      unfold Pad.sixButtonDrive
      rw [hrose]
      rfl
  | teamPlayer tap =>
      show tap.drive (core.answered (tap.drive core)).latchLines
        = tap.drive core
      cases hth : core.line .th with
      | true =>
          have hhigh := tap.drive_high hth
          rw [hhigh, tap.drive_high ((hline _ _).trans hth)]
          rfl
      | false =>
          have hlow := tap.drive_low hth
          rw [hlow, tap.drive_low ((hline _ _).trans hth), hline]
          have hplace : ∀ drive : Drive,
              TeamPlayer.place (core.answered drive).latchLines
                = drive.counter := by
            intro drive
            unfold TeamPlayer.place
            rw [hfell, hrose, hfell]
            rfl
          rw [hplace]
          rfl

/-- With no edge in sight, the answer depends on counters, registers and inputs
alone. -/
theorem drive_afresh (m : Model) {core : Core} (h : core.Settled) :
    m.drive core.afresh = m.drive core := by
  have hagree : m.drive core.afresh = m.drive core.senseLines.latchLines := by
    cases m <;> rfl
  rw [hagree, h.senseLines, h.latchLines]

/-- Scanlines are passed on. Only a six-button pad may start them again. -/
theorem drive_scanlines {m : Model} (h : m ≠ sixButton) (core : Core)
    (n : Nat) :
    m.drive { core with scanlines := n } = { m.drive core with
      scanlines := n } := by
  cases m with
  | sixButton => exact absurd rfl h
  | none | twoButton | threeButton | paddle | coleco => rfl
  | teamPlayer tap =>
      show tap.drive { core with scanlines := n } = { tap.drive core with
        scanlines := n }
      unfold TeamPlayer.drive
      by_cases hth : core.line .th = true
      · rw [if_pos hth, if_pos
          (show Core.line { core with scanlines := n } .th = true from hth)]
      · rw [if_neg hth, if_neg
          (show ¬Core.line { core with scanlines := n } .th = true from hth)]
        rfl

end Model

-- ==================================================================== rest

/-- The device stands on its lines and drives what it would answer now. -/
structure AtRest (d : Peripheral) : Prop where
  settled : d.core.Settled
  answer : d.own.drive d.core = ⟨d.core.counter, d.core.scanlines,
      d.core.deviceData⟩

namespace AtRest

variable {d : Peripheral}

private theorem of_refresh (d : Peripheral) : AtRest d.refresh where
  settled := Device.settled_refresh d
  answer := d.own.drive_latched d.core.senseLines

/-- A device that answers on settled lines is at rest behind it. -/
private theorem of_respond (h : d.core.Settled) : AtRest d.respond where
  settled := Device.settled_respond h
  answer := by
    have hlatched : (d.core.answered (d.own.drive d.core)).latchLines
        = d.core.answered (d.own.drive d.core) :=
          (Device.settled_respond h).latchLines
    have hagain := d.own.drive_latched d.core
    rw [hlatched] at hagain
    exact hagain

/-- There is nothing to refresh. -/
theorem refresh (h : AtRest d) : d.refresh = d := by
  obtain ⟨core, own⟩ := d
  have hanswered : core.answered (own.drive core) = core := by
    rw [h.answer]
    exact h.settled.refreshOutput
  show (⟨(core.senseLines.answered (own.drive core.senseLines)).latchLines, own⟩
    : Peripheral) = _
  rw [h.settled.senseLines, hanswered, h.settled.latchLines]

/-- Scanlines that are only counted are part of no answer. -/
theorem scanline (h : AtRest d) : AtRest d.scanline := by
  unfold Device.scanline
  split
  · exact of_respond ⟨h.settled.lines, h.settled.before, h.settled.output⟩
  next hcounted =>
    have hpad : d.own ≠ .sixButton := fun hown => by
      rw [hown] at hcounted
      exact hcounted rfl
    refine ⟨⟨h.settled.lines, h.settled.before, h.settled.output⟩, ?_⟩
    show d.own.drive { d.core with
      scanlines := saturated (d.core.scanlines + 1) } = _
    rw [Model.drive_scanlines hpad, h.answer]
    rfl

theorem noteRead (h : AtRest d) : AtRest d.noteRead := by
  unfold Device.noteRead
  split
  · exact of_respond ⟨h.settled.lines, h.settled.before, h.settled.output⟩
  · exact h

theorem call (h : AtRest d) (c : Device.Call) : AtRest (c.apply d) := by
  cases c with
  | scanline => exact h.scanline
  | noteRead => exact h.noteRead
  | writeControl v | writeData v | update buttons | moveTo x y | setPin58 v
  | refresh | reset =>
      exact of_refresh _

/-- A look at the chained devices leaves a multitap at rest. -/
theorem see (h : AtRest d) (states : List (Option Chained)) :
    AtRest (d.see states) := by
  unfold Device.see
  split
  · exact h
  · exact of_refresh _

/-- A device that takes a link looks at it at once; others have none. -/
theorem link (h : AtRest d) (port : Nat) (sub : Option Nat)
    (states : List (Option Chained)) :
    AtRest ((d.link port sub).see states) := by
  by_cases hkind : d.kind = .teamPlayer
  · have hlinked : (d.link port sub).kind = .teamPlayer :=
      (congrArg (·.kind) (d.outline_link port sub)).trans hkind
    rw [Device.see_tap hlinked]
    exact of_refresh _
  · rw [Device.link_of_ne hkind]
    exact h.see states

/-- The serial registers drive no line. -/
theorem serial (h : AtRest d) (tx control : UInt8) :
    AtRest ⟨{ d.core with serialTx := tx, serialControl := control },
      d.own⟩ := by
  obtain ⟨core, own⟩ := d
  have hanswer : own.drive { core with
      serialTx := tx, serialControl := control }
      = own.drive core := by
    cases own <;> rfl
  exact ⟨⟨h.settled.lines, h.settled.before, h.settled.output⟩,
    hanswer.trans h.answer⟩

theorem act (h : AtRest d) (a : Device.Act) : AtRest (a.apply d) := by
  cases a with
  | place kind => exact of_refresh _
  | link port sub states => exact h.link port sub states
  | see states => exact h.see states
  | access states c => exact (h.see states).call c
  | press buttons => exact of_refresh _
  | call c => exact h.call c
  | sendSerial v => exact h.serial v d.core.serialControl
  | setSerial v => exact h.serial d.core.serialTx v
  | restart => exact of_refresh _

end AtRest

-- ================================================================= the hub

namespace Hub

theorem atRest_empty {id : Nat} {d : Peripheral}
    (h : empty.device? id = some d) : AtRest d := by
  obtain rfl := device?_empty h
  exact .of_refresh _

/-- An event leaves every device at rest. -/
private theorem atRest_next {hub : Hub} (e : Event)
    (h : ∀ id d, hub.device? id = some d → AtRest d) :
    ∀ id d, (hub.next e).device? id = some d → AtRest d :=
  forall_device_next (fun _ _ => .of_refresh _)
    (fun _ _ _ hd => Device.forall_acted (fun a _ _ hd => hd.act a) hd) h

/-- Events leave every device at rest. -/
theorem atRest_events {hub : Hub} (events : List Event)
    (h : ∀ id d, hub.device? id = some d → AtRest d) :
    ∀ id d, (events.foldl next hub).device? id = some d → AtRest d := by
  induction events generalizing hub with
  | nil => exact h
  | cons e rest ih => exact ih (atRest_next e h)

/-- Whatever has happened to a hub, each of its devices is at rest: it can be
refreshed any number of times and stays what it is, and it shows the console
what it would answer without any memory of earlier answers. -/
theorem devices_at_rest (events : List Event) {id : Nat} {d : Peripheral}
    (h : (events.foldl next empty).device? id = some d) :
    (∀ n, Device.refresh^[n] d = d)
      ∧ d.read = d.core.tristate (d.own.drive d.core.afresh).data := by
  have hrest : AtRest d := atRest_events events (fun _ _ => atRest_empty) id d h
  refine ⟨Function.iterate_fixed hrest.refresh, ?_⟩
  rw [Model.drive_afresh _ hrest.settled, hrest.answer]
  exact hrest.settled.output

/-- A six-button pad after two pulses of TH and a fall, with A pressed: it shows
START alone, and D0 to D3 low. -/
theorem devices_at_rest_pad :
    let events : List Event :=
      [.connectNew .one .sixButton, .updatePort .one (Button.pressed Button.a),
        .writeControl .one 0x40, .writeData .one 0x00, .writeData .one 0x40,
        .writeData .one 0x00, .writeRegister 1 0x40,
        .writeRegister 1 0x00].map .operation
    ∃ d, (events.foldl next empty).device? 3 = some d
      ∧ Device.refresh^[3] d = d ∧ d.core.counter = 2 ∧ d.read = 0x20 := by
  intro events
  have hpad : ((events.foldl next empty).device? 3).any (fun d =>
      d.core.counter = 2 ∧ d.core.tristate (d.own.drive d.core.afresh).data
        = 0x20) = true := by
    decide +kernel
  obtain ⟨d, hd, hshown⟩ := (Option.any_eq_true _ _).1 hpad
  obtain ⟨hcounter, hdata⟩ := of_decide_eq_true hshown
  obtain ⟨hrefresh, hread⟩ := devices_at_rest events hd
  exact ⟨d, hd, hrefresh 3, hcounter, hread.trans hdata⟩

end Hub

end ConsoleBoard.Controller
