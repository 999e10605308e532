/-
How a console acquires the pads behind a multitap.

An acquisition begins with a fall of TH and advances with each change of TR
(`Acquires`). In between the console may read, the host may press buttons on
any device, other ports have their traffic, and before each access the
multitap is refreshed to see its chained devices. What the multitap makes of
an operation, seen from its registers before and after, is `Tracks`: quiet
operations keep its place, and a write always finds it just refreshed, so the
edges that it sees are those of the registers (`Tracks.write`). So its
counter is the place of the acquisition (`Acquires.inStep`), and a read, which
begins with a refresh, answers from what the chained devices are now.

# Reads

A read begins with a refresh, and a refresh shows the multitap its chained
devices as they are at that moment (`chainedStates_tap`). So what it answers is
computed from the place in the sequence and from the pads as they are now, and
not as they were when the acquisition began (`readData_tap`, `readData_low`).
-/
import ConsoleBoard.Proofs.Controller.Still

namespace ConsoleBoard.Controller

-- ============================================================ one multitap

/-- What a multitap is after an operation, as far as the sequence is concerned:
a fall of TH begins it, and while TH stays low a change of TR brings the
next place. -/
structure Tracks (d d' : Peripheral) : Prop where
  kind : d'.kind = d.kind
  falls : d.kind = .teamPlayer → d.core.level .th = true →
      d'.core.level .th = false →
    d'.core.Settled ∧ d'.core.counter = 0
  counts : d.kind = .teamPlayer → d.core.Settled → d.core.level .th = false →
    d'.core.level .th = false →
    d'.core.Settled ∧ d'.core.counter
      = if d'.core.level .tr = d.core.level .tr then d.core.counter
        else saturated (d.core.counter + 1)

namespace Tracks

variable {d d' : Peripheral}

private theorem of_still (h : Still d d') : Tracks d d' where
  kind := h.kind
  falls _ hhigh hlow := by
    rw [h.level, hhigh] at hlow
    cases hlow
  counts htap hd hth _ := by
    rw [if_pos (h.level .tr)]
    exact ⟨h.settled hd, h.counter htap hd hth⟩

/-- A write to a device that has just been refreshed. -/
theorem write (h : Still d d') (hd' : d'.core.Settled) {core : Core}
    (hcounter : core.counter = d'.core.counter)
    (hbefore : core.linesBefore = d'.core.linesBefore) :
    Tracks d (Device.refresh ⟨core, d'.own⟩) := by
  have hfell : ∀ pin, core.senseLines.fell pin
      = (d.core.level pin && !core.level pin) :=
    fun pin => by rw [hd'.fell pin core hbefore, h.level]
  have hrose : ∀ pin, core.senseLines.rose pin
      = (!d.core.level pin && core.level pin) :=
    fun pin => by rw [hd'.rose pin core hbefore, h.level]
  have hplace : d.kind = .teamPlayer → core.level .th = false →
      (Device.refresh ⟨core, d'.own⟩).core.counter
        = TeamPlayer.place core.senseLines := by
    intro htap hlow
    obtain ⟨tap, hown⟩ := Model.eq_teamPlayer (h.kind.trans htap)
    rw [hown]
    have hline : core.senseLines.line .th = false := hlow
    show (tap.drive core.senseLines).counter = _
    rw [tap.drive_low hline]
  -- TH falling begins an acquisition; while it is low, each edge of TR is one
  -- place further
  refine ⟨h.kind, fun htap hhigh hlow => ⟨Device.settled_refresh _, ?_⟩,
    fun htap hd hth hlow => ⟨Device.settled_refresh _, ?_⟩⟩
  · rw [hplace htap hlow]
    unfold TeamPlayer.place
    have hlow' : core.level .th = false := hlow
    rw [hfell, hhigh, hlow']
    rfl
  · have hlow' : core.level .th = false := hlow
    have hsame : core.senseLines.counter = d.core.counter :=
      hcounter.trans (h.counter htap hd hth)
    have hlevel : (Device.refresh ⟨core, d'.own⟩).core.level .tr
        = core.level .tr := rfl
    rw [hplace htap hlow, hlevel]
    unfold TeamPlayer.place
    rw [hfell, hrose, hfell, hth, hsame]
    cases d.core.level .tr <;> cases core.level .tr <;> rfl

end Tracks

-- ================================================================= the hub

namespace Hub

/-- The device on a port, if it is a multitap. -/
def tapOn (hub : Hub) (port : Port) : Option Peripheral :=
  (hub.device? (hub.portDevice port)).filter (·.kind = .teamPlayer)

/-- What the chained devices of the device on a port are now. -/
def chainedStates (hub : Hub) (port : Port) : List (Option Chained) :=
  match hub.device? (hub.portDevice port) with
  | some d => d.chained.map fun sub => sub.bind hub.chainedState
  | none => []

/-- A multitap sees its devices as they are. -/
theorem device?_sync_tap {hub : Hub} {id : Nat} {core : Core} {tap : TeamPlayer}
    (h : hub.device? id = some ⟨core, .teamPlayer tap⟩) :
    (hub.sync id).device? id
      = some (Device.refresh ⟨core, .teamPlayer
          { tap with seen := tap.ports.map fun sub =>
                       sub.bind hub.chainedState }⟩) := by
  have hchained :
      ¬(Device.chained (⟨core, .teamPlayer tap⟩ : Peripheral)).isEmpty := by
    show ¬tap.ports.toList.isEmpty
    simp
  have hstates : (Device.chained (⟨core, .teamPlayer tap⟩ : Peripheral)).map
      (fun sub => sub.bind hub.chainedState)
      = (tap.ports.map fun sub => sub.bind hub.chainedState).toList :=
    Vector.toList_map.symm
  unfold sync
  rw [h]
  dsimp only
  rw [if_neg hchained, device?_modify, if_pos rfl, h, hstates, Option.map_some,
    Device.observeFrom_tap]

/-- A multitap is tracked, or it has been reset or replaced, and then the
console drives no line of it. -/
def Kept (d d' : Peripheral) : Prop :=
  d.kind = .teamPlayer → Tracks d d' ∨ d'.core.control = 0

namespace Kept

variable {d d' d'' : Peripheral}

private theorem of_still (h : Still d d') : Kept d d' :=
  fun _ => .inl (.of_still h)

/-- A write of the console finds a multitap refreshed. -/
theorem write (d : Peripheral) (states : List (Option Chained))
    (change : Core → Core)
    (hcounter : ∀ core, (change core).counter = core.counter)
    (hbefore : ∀ core, (change core).linesBefore = core.linesBefore) :
    Kept d ((d.see states).onCore change).refresh := by
  intro htap
  have hsettled : (d.see states).core.Settled := by
    rw [Device.see_tap htap]
    exact Device.settled_refresh _
  exact .inl (.write (.see d states) hsettled (hcounter _) (hbefore _))

/-- A write to the data register keeps what the host has seen. -/
theorem writeData (d : Peripheral) (states : List (Option Chained))
    (v : UInt8) :
    Kept d ((d.see states).writeData v) :=
  write d states (fun core => { core with systemData := v })
    (fun _ => rfl) fun _ => rfl

/-- A write to the control register keeps what the host has seen. -/
theorem writeControl (d : Peripheral) (states : List (Option Chained))
    (v : UInt8) :
    Kept d ((d.see states).writeControl v) :=
  write d states (fun core => { core with control := v })
    (fun _ => rfl) fun _ => rfl

theorem acted {op : Operation} (hop : op ≠ .resetDevices) (l : Layout)
    (id : Nat) (d : Peripheral) : Kept d (d.acted (l.acts id op)) := by
  have honly : ∀ {a : Device.Act} (target : Nat), Kept d (a.apply d) →
      Kept d (d.acted (a.only target id)) := fun target ha =>
    Device.acted_only (P := Kept d) ha (of_still (.refl d)) target id
  cases op with
  | resetDevices => exact absurd rfl hop
  | replace target kind => exact honly target fun _ => .inr rfl
  | reset =>
      -- the looks that follow the reset leave the registers as it made them
      have hlooks : Still d.reset (d.reset.acted (Port.all.flatMap fun port =>
          (Device.Act.see (l.released.seenBy id)).only
            (l.portDevice port) id)) := by
        refine .acted (fun a ha => ?_) _
        obtain ⟨port, -, hport⟩ := List.mem_flatMap.1 ha
        exact Device.Act.forall_only (fun _ => trivial) a hport
      exact fun _ => .inr hlooks.control
  | writeData port v => exact honly _ (writeData d _ v)
  | writeControl port v => exact honly _ (writeControl d _ v)
  | writeRegister index v =>
      unfold Layout.acts
      dsimp only
      split
      · exact honly _ (writeData d _ v)
      · exact honly _ (writeControl d _ v)
      · exact honly _ (of_still (.setSerialTx d v))
      · exact honly _ (of_still (.setSerialControl d _))
      · exact of_still (.refl d)
  | add _ | connect _ _ | connectNew _ _ | attach _ _ _ | updateButtons _ _
  | updatePort _ _ | moveTo _ _ _ | scanline | readData _ | readControl _
  | readRegister _ =>
      refine of_still (.acted (l.quiet_acts ?_ id) d)
      exact trivial

end Kept

/-- Every operation but a reset of the devices keeps it. -/
private theorem kept_after {op : Operation} (hop : op ≠ .resetDevices)
    (hub : Hub) (id : Nat) (d : Peripheral) (hd : hub.device? id = some d) :
    ∃ d', (hub.after op).device? id = some d' ∧ Kept d d' :=
  ⟨_, device?_after_some hd op, .acted hop hub.layout id d⟩

end Hub

-- ========================================================== an acquisition

/-- The console drives TH and TR, and D0 to D4 are inputs. -/
def Core.DrivesSelect (core : Core) : Prop :=
  core.control &&& Pin.allLines = Pin.th.mask ||| Pin.tr.mask

instance (core : Core) : Decidable core.DrivesSelect :=
  inferInstanceAs (Decidable (_ = _))

/-- The console reads on D0 to D4 what the device drives. -/
theorem Core.DrivesSelect.tristate {core : Core} (h : core.DrivesSelect)
    (data : UInt8) :
    core.tristate data &&& 0x1F = data &&& 0x1F := by
  refine core.tristate_and data (by decide) ?_
  have hinputs := congrArg (· &&& 0x1F) h
  have hmask : Pin.allLines &&& 0x1F = 0x1F := by decide
  simp only [UInt8.and_assoc, hmask] at hinputs
  exact hinputs.trans (by decide)

/-- The multitap on a port is in an acquisition, at the place `k` of the
sequence. It begins with an operation that makes TH fall. While TH stays low,
each operation that moves TR brings the next place, and no other does. The
port is not connected anew and the protocols are not reset on the way; all
other operations may come in between. -/
inductive Acquires (port : Port) : Hub → Nat → Prop
  | falls {hub : Hub} {op : Hub.Operation} {d d' : Peripheral}
      (hconnects : ¬op.Connects port) (hreset : op ≠ .resetDevices)
      (hbefore : hub.tapOn port = some d) (hhigh : d.core.level .th = true)
      (hafter : (hub.after op).tapOn port = some d')
        (hdrives : d'.core.DrivesSelect)
      (hlow : d'.core.level .th = false) :
      Acquires port (hub.after op) 0
  | next {hub : Hub} {k : Nat} {op : Hub.Operation} {d d' : Peripheral}
      (h : Acquires port hub k)
      (hconnects : ¬op.Connects port) (hreset : op ≠ .resetDevices)
      (hbefore : hub.tapOn port = some d)
      (hafter : (hub.after op).tapOn port = some d')
        (hdrives : d'.core.DrivesSelect)
      (hlow : d'.core.level .th = false) :
      Acquires port (hub.after op)
        (if d'.core.level .tr = d.core.level .tr then k else k + 1)

namespace Hub

/-- The port leads to a multitap. -/
theorem tapOn_eq_some {hub : Hub} {port : Port} {d : Peripheral} :
    hub.tapOn port = some d ↔
      hub.device? (hub.portDevice port) = some d ∧ d.kind = .teamPlayer := by
  unfold tapOn
  rw [Option.filter_eq_some_iff]
  simp

/-- An operation that leaves the multitap on its port and driven has kept track
of it. -/
theorem tracks_after {hub : Hub} {port : Port} {op : Operation}
    {d d' : Peripheral} (hconnects : ¬op.Connects port)
    (hreset : op ≠ .resetDevices) (hbefore : hub.tapOn port = some d)
    (hafter : (hub.after op).tapOn port = some d')
    (hdrives : d'.core.DrivesSelect) : Tracks d d' := by
  obtain ⟨hd, htap⟩ := tapOn_eq_some.1 hbefore
  obtain ⟨hd', -⟩ := tapOn_eq_some.1 hafter
  obtain ⟨e, he, hkept⟩ := kept_after hreset hub (hub.portDevice port) d hd
  rw [portDevice_after hconnects] at hd'
  cases hd'.symm.trans he
  refine (hkept htap).resolve_right fun hcontrol => ?_
  unfold Core.DrivesSelect at hdrives
  rw [hcontrol] at hdrives
  exact absurd hdrives (by decide)

end Hub

/-- Where an acquisition is, its multitap is settled and counts the place, as
far as its counter goes. -/
theorem Acquires.inStep {port : Port} {hub : Hub} {k : Nat}
    (h : Acquires port hub k) :
    ∃ d, hub.tapOn port = some d ∧ d.core.DrivesSelect
      ∧ d.core.level .th = false
      ∧ d.core.Settled ∧ d.core.counter = saturated k := by
  induction h with
  | falls hconnects hreset hbefore hhigh hafter hdrives hlow =>
      obtain ⟨-, htap⟩ := Hub.tapOn_eq_some.1 hbefore
      obtain ⟨hsettled, hcounter⟩ :=
        (Hub.tracks_after hconnects hreset hbefore hafter hdrives).falls htap
          hhigh hlow
      exact ⟨_, hafter, hdrives, hlow, hsettled, hcounter⟩
  | @next hub k op d d' h hconnects hreset hbefore hafter hdrives hlow ih =>
      obtain ⟨e, he, -, hth, hd, hcounter⟩ := ih
      cases he.symm.trans hbefore
      obtain ⟨-, htap⟩ := Hub.tapOn_eq_some.1 hbefore
      obtain ⟨hsettled, hplace⟩ :=
        (Hub.tracks_after hconnects hreset hbefore hafter hdrives).counts htap
          hd hth hlow
      refine ⟨d', hafter, hdrives, hlow, hsettled, hplace.trans ?_⟩
      rw [hcounter]
      split
      · rfl
      · unfold saturated
        omega

-- =============================================================== the reads

namespace Hub

private theorem chainedStates_tap {hub : Hub} {port : Port} {core : Core}
    {tap : TeamPlayer}
    (h : hub.device? (hub.portDevice port) = some ⟨core, .teamPlayer tap⟩) :
    hub.chainedStates port
      = (tap.ports.map fun sub => sub.bind hub.chainedState).toList := by
  unfold chainedStates
  rw [h]
  exact Vector.toList_map.symm

/-- A read finds the multitap refreshed, and does not move it. -/
theorem readData_tap {hub : Hub} {port : Port} {core : Core} {tap : TeamPlayer}
    (h : hub.device? (hub.portDevice port) = some ⟨core, .teamPlayer tap⟩) :
    (hub.readData port).1
      = core.tristate (TeamPlayer.drive
          { tap with seen := tap.ports.map fun sub =>
                       sub.bind hub.chainedState }
          core.senseLines).data := by
  unfold readData
  dsimp only
  rw [device?_modify, if_pos rfl, device?_sync_tap h]
  rfl

/-- In an acquisition at the place `k`. -/
theorem readData_low {hub : Hub} {port : Port} {core : Core}
    {tap : TeamPlayer} {k : Nat}
    (h : hub.device? (hub.portDevice port) = some ⟨core, .teamPlayer tap⟩)
    (hdrives : core.DrivesSelect) (hlow : core.level .th = false)
    (hsettled : core.Settled) (hcounter : core.counter = saturated k) :
    let v := (hub.readData port).1
    v &&& 0x0F = (TeamPlayer.sequence (hub.chainedStates port)).getD k
      TeamPlayer.idle
      ∧ Pin.tl.isHigh v = core.level .tr := by
  intro v
  let seen : TeamPlayer :=
    { tap with seen := tap.ports.map fun sub => sub.bind hub.chainedState }
  let shown := TeamPlayer.answer (core.level .tr) (seen.nibble (saturated k))
  have hline : core.senseLines.line .th = false := hlow
  have hplace := TeamPlayer.place_of_level hsettled rfl fun _ => rfl
  have hv : v = core.tristate shown := by
    show (hub.readData port).1 = _
    rw [readData_tap h, seen.drive_low hline, hplace, hcounter]
    rfl
  -- D0 to D3 and TL are inputs, and both come from the device's answer
  have hinputs : v &&& 0x1F = shown &&& 0x1F := by rw [hv, hdrives.tristate]
  have hpart : ∀ w : UInt8, w &&& 0x0F = (w &&& 0x1F) &&& 0x0F
      ∧ Pin.tl.isHigh w = Pin.tl.isHigh (w &&& 0x1F) := by
    intro w
    unfold Pin.isHigh
    rw [UInt8.and_assoc, UInt8.and_assoc]
    exact ⟨rfl, rfl⟩
  obtain ⟨hnibble, htl⟩ :=
    TeamPlayer.answer_eq (core.level .tr) (seen.nibble_lt (saturated k))
  rw [(hpart v).1, (hpart v).2, hinputs, ← (hpart shown).1, ← (hpart shown).2,
    chainedStates_tap h, ← seen.nibble_saturated k]
  exact ⟨hnibble, htl⟩

end Hub

/-- A console that acquires the pads behind a multitap reads their sequence.
While the acquisition stands at the place `k`, a read gives the nibble there,
made of what the chained devices are at this moment, and shows on TL the
level of TR. Operations that write no registers, as reads and button updates,
leave it at its place. While TH is high, a read gives the nibble 3 with TL
high. -/
theorem acquisition_reads_sequence (port : Port) :
    (∀ (hub : Hub) (k : Nat) (d : Peripheral), Acquires port hub k →
      hub.tapOn port = some d →
      let v := (hub.readData port).1
      v &&& 0x0F = (TeamPlayer.sequence (hub.chainedStates port)).getD k
        TeamPlayer.idle
        ∧ Pin.tl.isHigh v = d.core.level .tr)
    ∧ (∀ (hub : Hub) (k : Nat) (op : Hub.Operation), Acquires port hub k →
      op.IsQuiet →
      ¬op.Connects port → Acquires port (hub.after op) k)
    ∧ ∀ (hub : Hub) (d : Peripheral), hub.tapOn port = some d →
      d.core.DrivesSelect →
      d.core.level .th = true → (hub.readData port).1 &&& 0x1F = 0x13 := by
  refine ⟨fun hub k d h hd => ?_, fun hub k op h hquiet hconnects => ?_,
    fun hub d hd hdrives hhigh => ?_⟩
  · obtain ⟨e, he, hdrives, hlow, hsettled, hcounter⟩ := h.inStep
    cases he.symm.trans hd
    obtain ⟨hdevice, htap⟩ := Hub.tapOn_eq_some.1 hd
    obtain ⟨core, own⟩ := d
    obtain ⟨tap, rfl⟩ := Model.eq_teamPlayer htap
    exact Hub.readData_low hdevice hdrives hlow hsettled hcounter
  · -- the operation leaves the multitap on the port, with its inputs as they
    -- were
    obtain ⟨d, hd, hdrives, hlow, -, -⟩ := h.inStep
    obtain ⟨hdevice, htap⟩ := Hub.tapOn_eq_some.1 hd
    obtain ⟨d', hd', hstill⟩ :=
      Hub.still_after hquiet hub (hub.portDevice port) d hdevice
    have hafter : (hub.after op).tapOn port = some d' := by
      rw [Hub.tapOn_eq_some, Hub.portDevice_after hconnects]
      exact ⟨hd', hstill.kind.trans htap⟩
    have hreset : op ≠ .resetDevices := by
      rintro rfl
      exact hquiet
    have hnext := h.next hconnects hreset hd hafter
      (by rw [Core.DrivesSelect, hstill.control]; exact hdrives)
        ((hstill.level .th).trans hlow)
    rwa [if_pos (hstill.level .tr)] at hnext
  · obtain ⟨hdevice, htap⟩ := Hub.tapOn_eq_some.1 hd
    obtain ⟨core, own⟩ := d
    obtain ⟨tap, rfl⟩ := Model.eq_teamPlayer htap
    have hline : core.senseLines.line .th = true := hhigh
    have hidle : (0xF3 : UInt8) &&& 0x1F = 0x13 := by decide
    rw [Hub.readData_tap hdevice, TeamPlayer.drive_high _ hline,
      hdrives.tristate]
    exact hidle

/-- A multitap on port one, with a six-button pad chained to its first virtual
port, and TH and TR driven high. -/
def selectedTap : Hub :=
  [Hub.Operation.connectNew .one .teamPlayer, .add .sixButton,
    .attach 3 0 (some 4),
    .writeControl .one 0x60, .writeData .one 0x60].foldl Hub.after Hub.empty

/-- Three changes of TR after the fall of TH bring the type of the first
virtual port, which is the one of a six-button pad. A read leaves it
there. -/
theorem acquisition_reads_sequence_type :
    let begun := selectedTap.after (.writeData .one 0x20)
    let first := begun.after (.writeData .one 0x00)
    let second := first.after (.writeData .one 0x20)
    let third := second.after (.writeData .one 0x00)
    (selectedTap.readData .one).1 &&& 0x1F = 0x13
      ∧ Acquires .one third 3
      ∧ (third.readData .one).1 &&& 0x0F = 0x01
      ∧ Pin.tl.isHigh (third.readData .one).1 = false
      ∧ Acquires .one (third.after (.readData .one)) 3 := by
  intro begun first second third
  obtain ⟨hreads, hquiet, hidle⟩ := acquisition_reads_sequence .one
  have hfind : ∀ (hub : Hub) (th tr : Bool),
      ((hub.tapOn .one).any fun d =>
        d.core.DrivesSelect ∧ d.core.level .th = th
          ∧ d.core.level .tr = tr) = true →
      ∃ d, hub.tapOn .one = some d ∧ d.core.DrivesSelect ∧ d.core.level .th = th
        ∧ d.core.level .tr = tr := by
    intro hub th tr h
    simpa [Option.any_eq_true] using h
  obtain ⟨d, hd, hdrives, hhigh, -⟩ :=
    hfind selectedTap true true (by decide +kernel)
  obtain ⟨d0, hd0, hdrives0, hlow0, htr0⟩ :=
    hfind begun false true (by decide +kernel)
  obtain ⟨d1, hd1, hdrives1, hlow1, htr1⟩ :=
    hfind first false false (by decide +kernel)
  obtain ⟨d2, hd2, hdrives2, hlow2, htr2⟩ :=
    hfind second false true (by decide +kernel)
  obtain ⟨d3, hd3, hdrives3, hlow3, htr3⟩ :=
    hfind third false false (by decide +kernel)
  have h0 : Acquires .one begun 0 := .falls id nofun hd hhigh hd0 hdrives0 hlow0
  have h1 : Acquires .one first _ := h0.next id nofun hd0 hd1 hdrives1 hlow1
  have h2 : Acquires .one second _ := h1.next id nofun hd1 hd2 hdrives2 hlow2
  have h3 : Acquires .one third _ := h2.next id nofun hd2 hd3 hdrives3 hlow3
  rw [htr0, htr1, htr2, htr3] at h3
  obtain ⟨hnibble, htl⟩ := hreads third 3 d3 h3 hd3
  have hplace : (TeamPlayer.sequence (third.chainedStates .one)).getD 3
      TeamPlayer.idle = 0x01 := by
    decide +kernel
  exact ⟨hidle selectedTap d hd hdrives hhigh, h3, hnibble.trans hplace,
    htl.trans htr3,
    hquiet third 3 (.readData .one) h3 trivial id⟩

end ConsoleBoard.Controller
