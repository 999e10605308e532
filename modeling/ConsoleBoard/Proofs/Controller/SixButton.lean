/-
The six-button pad counts the rises of TH.

What can be said of a pad from outside is in its history
(`PadHistory`): the registers and buttons last set, and how often TH has
risen since the last scanline or reset. The pad follows it (`Follows`), call
after call: a write that raises TH is one more rise, and every other call
that lets the pad answer finds TH where it was (`Core.Settled.rose`), so it
changes what is shown and not the count.

# One call

What a call does to the history is written without the pad
(`PadHistory.after`), and `Follows.apply` shows that the pad keeps up with it.
The layout of the lines by count and level of TH is a table (`layout`), and the
lines of the pad are that table at its count (`dataLines_sixButton`).
-/
import ConsoleBoard.Controller.Buttons
import ConsoleBoard.Controller.Model
import ConsoleBoard.Proofs.Controller.Settled

namespace ConsoleBoard.Controller

-- ============================================================== the layout

/-- What stands on a line: a fixed level or a button, which pulls the line
low while it is pressed. -/
inductive Shown
  | low | high
  | button (mask : UInt32)
deriving DecidableEq

def Shown.level (buttons : UInt32) : Shown → Bool
  | low => false
  | high => true
  | button mask => buttons &&& mask != 0

/-- The data lines, from D5 to D0. -/
def dataLines : List Pin := [.tr, .tl, .right, .left, .down, .up]

namespace Pad

/-- What a six-button pad shows on D5 to D0 after `count` rises of TH, modulo
four, and at the present level of TH. -/
def layout (count : Nat) (th : Bool) : List Shown :=
  match th, count with
  | true, 3 => [.button Button.c, .button Button.b, .button Button.mode,
      .button Button.x,
      .button Button.y, .button Button.z]
  | true, _ => [.button Button.c, .button Button.b, .button Button.right,
      .button Button.left,
      .button Button.down, .button Button.up]
  | false, 2 => [.button Button.start, .button Button.a, .low, .low, .low, .low]
  | false, 3 =>
      [.button Button.start, .button Button.a, .high, .high, .high, .high]
  | false, _ =>
      [.button Button.start, .button Button.a, .low, .low, .button Button.down,
      .button Button.up]

end Pad

/-- The line of a button is its bit of the word. -/
theorem Shown.level_button (buttons : UInt32) {mask : UInt32} {i : Nat}
    (hmask : mask.toNat = 2 ^ i) :
    (Shown.button mask).level buttons = buttons.toBitVec.getLsbD i := by
  have hzero : buttons &&& mask = 0 ↔ buttons.toNat &&& 2 ^ i = 0 := by
    rw [← UInt32.toNat_inj, UInt32.toNat_and, hmask]
    rfl
  rw [Nat.and_two_pow] at hzero
  show (buttons &&& mask != 0) = buttons.toNat.testBit i
  cases htest : buttons.toNat.testBit i <;> simp_all

/-- The lines of a byte, bit by bit. -/
theorem dataLines_isHigh (v : UInt8) :
    dataLines.map (·.isHigh v) = [v.toBitVec.getLsbD 5, v.toBitVec.getLsbD 4,
      v.toBitVec.getLsbD 3, v.toBitVec.getLsbD 2, v.toBitVec.getLsbD 1,
      v.toBitVec.getLsbD 0] := by
  have hline : ∀ (pin : Pin) (i : Nat), pin.mask.toNat = 2 ^ i →
      pin.isHigh v = v.toBitVec.getLsbD i :=
        fun pin i hmask => pin.isHigh_eq hmask v
  simp only [dataLines, List.map_cons, List.map_nil, hline .tr 5 rfl,
    hline .tl 4 rfl, hline .right 3 rfl, hline .left 2 rfl, hline .down 1 rfl,
    hline .up 0 rfl]

/-- The lines of a six-button pad are its layout, line by line. -/
theorem dataLines_sixButton (count : Nat) (buttons : UInt32) (th : Bool) :
    dataLines.map (·.isHigh (Pad.sixButton count buttons th))
      = (Pad.layout count th).map (·.level buttons) := by
  have hbutton : ∀ mask i, mask.toNat = 2 ^ i →
      (Shown.button mask).level buttons = buttons.toBitVec.getLsbD i :=
        fun _ _ =>
    Shown.level_button buttons
  rw [dataLines_isHigh]
  unfold Pad.layout
  split
  all_goals
    simp only [List.map_cons, List.map_nil,
      hbutton Button.up 0 rfl, hbutton Button.down 1 rfl,
      hbutton Button.left 2 rfl,
      hbutton Button.right 3 rfl, hbutton Button.b 4 rfl,
      hbutton Button.c 5 rfl,
      hbutton Button.a 6 rfl, hbutton Button.start 7 rfl,
      hbutton Button.z 8 rfl,
      hbutton Button.y 9 rfl, hbutton Button.x 10 rfl,
      hbutton Button.mode 11 rfl]
    clear hbutton
    simp_all [Pad.sixButton, Pad.threeButton, Pad.startA, Shown.level]

/-- TH shows its own level. -/
theorem th_sixButton (count : Nat) (buttons : UInt32) (th : Bool) :
    Pin.th.isHigh (Pad.sixButton count buttons th) = th := by
  rw [Pin.th.isHigh_eq (i := 6) rfl]
  unfold Pad.sixButton
  split
  case h_4 => cases th <;> simp [Pad.threeButton, Pad.startA]
  all_goals simp [Pad.startA]

/-- With no edge, the answer is what the count shows. -/
theorem drive_of_settled {core : Core} (h : core.Settled) :
    Pad.sixButtonDrive core
      = ⟨core.counter, core.scanlines,
          Pad.sixButton core.counter core.buttons (core.level .th)⟩ := by
  unfold Pad.sixButtonDrive
  rw [h.not_rose, h.line]
  rfl

-- ============================================================= the history

/-- What a pad has been told: the registers and buttons last set, and the rises
of TH since the last scanline or reset. -/
structure PadHistory where
  control : UInt8 := 0x00
  data : UInt8 := 0xFF
  buttons : UInt32 := Button.released
  rises : Nat := 0

namespace PadHistory

/-- The level of TH, which is high while the console does not drive it. -/
def th (h : PadHistory) : Bool := Pin.th.isHigh (~~~h.control ||| h.data)

/-- The history with new registers or buttons: one rise more if these raise
TH. -/
def turn (h h' : PadHistory) : PadHistory :=
  if !h.th && h'.th then { h' with rises := h'.rises + 1 } else h'

def after (h : PadHistory) : Device.Call → PadHistory
  | .writeControl v => h.turn { h with control := v }
  | .writeData v => h.turn { h with data := v }
  | .update buttons => { h with buttons }
  | .moveTo _ _ | .setPin58 _ | .refresh | .noteRead => h
  | .scanline => { h with rises := 0 }
  | .reset => {}

variable (h h' : PadHistory)

private theorem control_turn : (h.turn h').control = h'.control := by
  unfold turn
  split <;> rfl

private theorem data_turn : (h.turn h').data = h'.data := by
  unfold turn
  split <;> rfl

theorem buttons_turn : (h.turn h').buttons = h'.buttons := by
  unfold turn
  split <;> rfl

theorem th_turn : (h.turn h').th = h'.th := by
  unfold th
  rw [control_turn, data_turn]

variable {h h'}

/-- Where TH stays, nothing is counted. -/
theorem turn_of_th {h h' : PadHistory} (hth : h'.th = h.th) :
    h.turn h' = h' := by
  unfold turn
  rw [hth, Bool.not_and_self]
  rfl

end PadHistory

/-- The pad is where its history leads. -/
structure Follows (pad : Peripheral) (h : PadHistory) : Prop where
  own : pad.own = .sixButton
  settled : pad.core.Settled
  control : pad.core.control = h.control
  data : pad.core.systemData = h.data
  buttons : pad.core.buttons = h.buttons
  counter : pad.core.counter = h.rises % 4
  shown : pad.core.deviceData = Pad.sixButton (h.rises % 4) h.buttons h.th

namespace Follows

variable {pad : Peripheral} {h h' : PadHistory}

/-- The pad has TH where its history has it. -/
private theorem level_th (hpad : Follows pad h) :
    pad.core.level .th = h.th := by
  unfold Core.level PadHistory.th
  rw [hpad.control, hpad.data]

/-- A refresh with new registers or buttons counts a rise if there is one. -/
theorem refresh (hpad : Follows pad h) {core : Core}
    (hcounter : core.counter = pad.core.counter)
    (hbefore : core.linesBefore = pad.core.linesBefore)
    (hcontrol : core.control = h'.control) (hdata : core.systemData = h'.data)
    (hbuttons : core.buttons = h'.buttons) (hrises : h'.rises = h.rises) :
    Follows (Device.refresh ⟨core, pad.own⟩) (h.turn h') := by
  have hlevel : core.level .th = h'.th := by
    unfold Core.level PadHistory.th
    rw [hcontrol, hdata]
  -- the edge is read off the levels before and after
  have hrise : core.senseLines.rose .th = (!h.th && h'.th) := by
    rw [hpad.settled.rose .th core hbefore, hpad.level_th, hlevel]
  -- the counter wraps at four and the history does not
  have hcount : (Pad.sixButtonDrive core.senseLines).counter
      = (h.turn h').rises % 4 := by
    have hold : core.senseLines.counter = h'.rises % 4 := by
      rw [hrises, ← hpad.counter]
      exact hcounter
    unfold Pad.sixButtonDrive PadHistory.turn
    dsimp only
    rw [hrise, hold]
    split
    · exact (Nat.add_mod h'.rises 1 4).symm
    · rfl
  have hanswer : Device.refresh ⟨core, pad.own⟩
      = ⟨(core.senseLines.answered
          (Pad.sixButtonDrive core.senseLines)).latchLines,
          .sixButton⟩ := by
    rw [hpad.own]
    rfl
  rw [hanswer]
  refine ⟨rfl, ⟨rfl, rfl, rfl⟩, ?_, ?_, ?_, hcount, ?_⟩
  · exact hcontrol.trans (h.control_turn h').symm
  · exact hdata.trans (h.data_turn h').symm
  · exact hbuttons.trans (h.buttons_turn h').symm
  · have hshown : (Pad.sixButtonDrive core.senseLines).data
        = Pad.sixButton (Pad.sixButtonDrive core.senseLines).counter
          core.buttons
            (core.level .th) := rfl
    rw [PadHistory.buttons_turn, PadHistory.th_turn, ← hcount,
      ← hbuttons, ← hlevel]
    exact hshown

/-- A refresh that leaves TH where it was counts nothing. -/
theorem touch (hpad : Follows pad h) {core : Core}
    (hcounter : core.counter = pad.core.counter)
    (hbefore : core.linesBefore = pad.core.linesBefore)
    (hcontrol : core.control = pad.core.control)
    (hdata : core.systemData = pad.core.systemData)
    (hbuttons : core.buttons = h'.buttons)
    (hh : h' = { h with buttons := h'.buttons }) :
    Follows (Device.refresh ⟨core, pad.own⟩) h' := by
  have hth : h'.th = h.th := by
    rw [hh]
    rfl
  rw [← PadHistory.turn_of_th hth]
  refine hpad.refresh hcounter hbefore ?_ ?_ hbuttons ?_
  · rw [hcontrol, hpad.control, hh]
  · rw [hdata, hpad.data, hh]
  · rw [hh]

/-- A scanline starts the count again, without an edge. -/
theorem scanline (hpad : Follows pad h) :
    Follows pad.scanline { h with rises := 0 } := by
  have hcleared : pad.core.resetCounters.Settled :=
    ⟨hpad.settled.lines, hpad.settled.before, hpad.settled.output⟩
  have hanswer : pad.scanline
      = ⟨pad.core.resetCounters.answered
        (Pad.sixButtonDrive pad.core.resetCounters),
          .sixButton⟩ := by
    obtain ⟨core, own⟩ := pad
    cases hpad.own
    rfl
  rw [hanswer, drive_of_settled hcleared]
  exact ⟨rfl, ⟨hcleared.lines, hcleared.before, rfl⟩, hpad.control, hpad.data,
    hpad.buttons, rfl,
    congrArg₂ (Pad.sixButton 0) hpad.buttons hpad.level_th⟩

/-- After a reset nothing is driven, so TH is high, and that is no edge. -/
theorem reset (hown : pad.own = .sixButton) : Follows pad.reset {} := by
  have hcleared : pad.core.resetSystem.resetCounters.Settled := ⟨rfl, rfl, rfl⟩
  have hanswer : pad.reset
      = ⟨(pad.core.resetSystem.resetCounters.answered
          (Pad.sixButtonDrive pad.core.resetSystem.resetCounters)).latchLines,
          .sixButton⟩ := by
    obtain ⟨core, own⟩ := pad
    subst hown
    rfl
  have hlevel : pad.core.resetSystem.resetCounters.level .th
      = PadHistory.th {} := rfl
  rw [hanswer, drive_of_settled hcleared]
  exact ⟨rfl, ⟨rfl, rfl, rfl⟩, rfl, rfl, rfl, rfl,
    congrArg (Pad.sixButton 0 Button.released) hlevel⟩

/-- The pad follows each call. -/
theorem apply (hpad : Follows pad h) (c : Device.Call) :
    Follows (c.apply pad) (h.after c) := by
  cases c with
  | writeControl v => exact hpad.refresh rfl rfl rfl hpad.data hpad.buttons rfl
  | writeData v => exact hpad.refresh rfl rfl hpad.control rfl hpad.buttons rfl
  | update buttons => exact hpad.touch rfl rfl rfl rfl rfl rfl
  | moveTo x y => exact hpad.touch rfl rfl rfl rfl hpad.buttons rfl
  | setPin58 v => exact hpad.touch rfl rfl rfl rfl hpad.buttons rfl
  | refresh => exact hpad.touch rfl rfl rfl rfl hpad.buttons rfl
  | noteRead =>
      have hquiet : pad.noteRead = pad := by
        unfold Device.noteRead
        rw [hpad.own]
        rfl
      show Follows pad.noteRead h
      rw [hquiet]
      exact hpad
  | scanline => exact hpad.scanline
  | reset => exact .reset hpad.own

/-- A pad follows its history along any calls. -/
theorem calls (hpad : Follows pad h) (list : List Device.Call) :
    Follows (list.foldl (fun pad c => c.apply pad) pad)
      (list.foldl PadHistory.after h) := by
  induction list generalizing pad h with
  | nil => exact hpad
  | cons c rest ih => exact ih (hpad.apply c)

end Follows

-- ============================================================= the theorem

/-- A six-button pad counts the rises of TH and nothing else. Whatever calls
have been made, its count is the number of rises of TH since the last
scanline or reset, modulo four, and the byte that it drives is laid out by
that count, by the level of TH and by the buttons last set. On each line
that the console does not drive itself it reads that byte. -/
theorem six_button_counts_rises (list : List Device.Call) :
    let pad := list.foldl (fun pad c => c.apply pad)
      (Device.create Model.sixButton)
    let h := list.foldl PadHistory.after {}
    let shown := pad.core.deviceData
    pad.core.counter = h.rises % 4
    ∧ dataLines.map (·.isHigh shown)
      = (Pad.layout (h.rises % 4) h.th).map (·.level h.buttons)
    ∧ Pin.th.isHigh shown = h.th
    ∧ ∀ pin ∈ dataLines, pin.isHigh pad.read
        = if pin.isHigh h.control then pin.isHigh h.data
          else pin.isHigh shown := by
  intro pad h shown
  have hpad : Follows pad h := Follows.calls (.reset rfl) list
  refine ⟨hpad.counter, ?_, ?_, ?_⟩
  · rw [← dataLines_sixButton, ← hpad.shown]
  · rw [← th_sixButton (h.rises % 4) h.buttons h.th, ← hpad.shown]
  · have hread : pad.read = pad.core.tristate shown := hpad.settled.output
    have hmask : ∀ pin ∈ dataLines, ∃ i : Fin 7, pin.mask.toNat
        = 2 ^ i.val := by decide
    intro pin hpin
    obtain ⟨i, hi⟩ := hmask pin hpin
    rw [hread, Core.isHigh_tristate pad.core shown hi, hpad.control, hpad.data]

/-- Three pulses of TH bring the four further buttons: with MODE pressed, D3
reads low and D2, the line of X, high. -/
theorem six_button_counts_rises_mode :
    let pulse : List Device.Call := [.writeData 0x00, .writeData 0x40]
    let list : List Device.Call :=
      [.writeControl 0x40, .update (Button.released &&& ~~~Button.mode)]
        ++ pulse ++ pulse ++ pulse
    let pad := list.foldl (fun pad c => c.apply pad)
      (Device.create Model.sixButton)
    Pin.right ∈ dataLines ∧ Pin.left ∈ dataLines
      ∧ pad.core.counter = 3
      ∧ Pin.right.isHigh pad.read = false
      ∧ Pin.left.isHigh pad.read = true := by
  intro pulse list pad
  obtain ⟨hcounter, hshown, -, hread⟩ := six_button_counts_rises list
  have hlayout : dataLines.map (·.isHigh pad.core.deviceData)
      = [true, true, false, true, true, true] :=
        hshown.trans (by decide +kernel)
  simp only [dataLines, List.map_cons, List.cons.injEq] at hlayout
  obtain ⟨-, -, hmode, hx, -⟩ := hlayout
  have hright : Pin.right ∈ dataLines := by simp [dataLines]
  have hleft : Pin.left ∈ dataLines := by simp [dataLines]
  -- the console drives TH alone, so it reads both lines from the pad
  have hinputs : Pin.right.isHigh 0x40 = false
      ∧ Pin.left.isHigh 0x40 = false := by decide
  have hcontrol : (list.foldl PadHistory.after {}).control = 0x40 := by
    decide +kernel
  have hmode' := hread .right hright
  have hx' := hread .left hleft
  rw [hcontrol, hinputs.1] at hmode'
  rw [hcontrol, hinputs.2] at hx'
  exact ⟨hright, hleft, hcounter.trans (by decide +kernel), hmode'.trans hmode,
    hx'.trans hx⟩

end ConsoleBoard.Controller
