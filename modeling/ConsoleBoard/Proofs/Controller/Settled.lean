/-
Devices between two calls.

A device looks for edges while it answers a write, and afterwards they are
past: between calls it stands on the levels that its registers drive, counts
edges from these same levels, and shows the console what it drives
(`Core.Settled`). This holds of every protocol, since it is the work of
`Device.refresh` and not of the answer (`settled_apply`). So in the next call
a line has risen or fallen exactly if the registers then drive another level
than they did before it (`Core.Settled.rose`, `Core.Settled.fell`).

# Where edges come from

A core keeps two bytes of lines, those it senses now and those it sensed before,
and a line has risen or fallen when the two differ. `Settled` says that nothing
is left to be noticed. A call changes registers first and answers afterwards
(`Device.Call`), so both facts about edges compare the registers before the call
with those after it, and speak of no line at all.
-/
import ConsoleBoard.Controller.Device
import Mathlib.Data.Nat.Bitwise

namespace ConsoleBoard.Controller

-- =============================================================== the lines

/-- The line is high in a byte. -/
def Pin.isHigh (pin : Pin) (v : UInt8) : Bool := v &&& pin.mask != 0

theorem Pin.isHigh_eq (pin : Pin) {i : Nat} (hmask : pin.mask.toNat = 2 ^ i)
    (v : UInt8) :
    pin.isHigh v = v.toBitVec.getLsbD i := by
  have hzero : v &&& pin.mask = 0 ↔ v.toNat &&& 2 ^ i = 0 := by
    rw [← UInt8.toNat_inj, UInt8.toNat_and, hmask]
    rfl
  rw [Nat.and_two_pow] at hzero
  show (v &&& pin.mask != 0) = v.toNat.testBit i
  cases htest : v.toNat.testBit i <;> simp_all

namespace Core

/-- The level of a line by the registers: what the console drives, and high
where it drives nothing. -/
def level (core : Core) (pin : Pin) : Bool :=
  pin.isHigh (~~~core.control ||| core.systemData)

/-- The console reads a line as it drives it, and else as the device does. -/
theorem isHigh_tristate (core : Core) (data : UInt8) {pin : Pin} {i : Fin 7}
    (hmask : pin.mask.toNat = 2 ^ i.val) :
    pin.isHigh (core.tristate data)
      = if pin.isHigh core.control then pin.isHigh core.systemData
        else pin.isHigh data := by
  have hlow : ∀ i : Fin 7, BitVec.getLsbD 0x7F#8 i.val = true := by decide
  have hseven : ∀ i : Fin 7, BitVec.getLsbD 0x80#8 i.val = false := by decide
  have hbound : i.val < 8 := by omega
  simp only [pin.isHigh_eq hmask, tristate, UInt8.toBitVec_or,
    UInt8.toBitVec_and, UInt8.toBitVec_not, BitVec.getLsbD_or,
    BitVec.getLsbD_and, BitVec.getLsbD_not, UInt8.toBitVec_ofNat, hlow,
    hseven, hbound]
  cases core.control.toBitVec.getLsbD i.val <;> simp

/-- On lines that the console does not drive it reads what the device drives. -/
theorem tristate_and (core : Core) (data : UInt8) {mask : UInt8}
    (hmask : mask &&& 0x80 = 0) (hcontrol : core.control &&& mask = 0) :
    core.tristate data &&& mask = data &&& mask := by
  apply UInt8.eq_of_toBitVec_eq
  apply BitVec.eq_of_getLsbD_eq
  intro i hi
  have hbit := congrArg (fun v => v.toBitVec.getLsbD i) hcontrol
  have hseven := congrArg (fun v => v.toBitVec.getLsbD i) hmask
  have hall : ∀ i : Fin 8, BitVec.getLsbD 0x7F#8 i.val
      = !BitVec.getLsbD 0x80#8 i.val := by
    decide
  have hlow := hall ⟨i, hi⟩
  simp only [tristate, UInt8.toBitVec_or, UInt8.toBitVec_and,
    UInt8.toBitVec_not, BitVec.getLsbD_or, BitVec.getLsbD_and,
    BitVec.getLsbD_not, UInt8.toBitVec_ofNat] at *
  rw [hlow]
  clear hlow
  revert hbit hseven
  cases core.control.toBitVec.getLsbD i <;> cases mask.toBitVec.getLsbD i <;>
    cases BitVec.getLsbD 0x80#8 i <;> simp [hi]

/-- The device stands on its lines: it sees the driven levels, no edge is
left, and the console reads what is driven. -/
structure Settled (core : Core) : Prop where
  lines : core.lines = ~~~core.control ||| core.systemData
  before : core.linesBefore = core.lines
  output : core.output = core.tristate core.deviceData

variable {core : Core}

/-- Without a write there is no edge, and the lines are at their levels. -/
theorem Settled.line (h : core.Settled) (pin : Pin) :
    core.line pin = core.level pin := by
  unfold Core.line level Pin.isHigh
  rw [h.lines]

/-- Lines that stand where edges are counted from show none. -/
theorem not_rose (h : core.linesBefore = core.lines) (pin : Pin) :
    core.rose pin = false := by
  unfold Core.rose Core.line
  rw [h, bne, Bool.and_not_self]

/-- Where no line has moved, none has fallen. -/
theorem not_fell (h : core.linesBefore = core.lines) (pin : Pin) :
    core.fell pin = false := by
  unfold Core.fell Core.line
  rw [h, Bool.and_not_self]

/-- On settled lines nothing rises. -/
theorem Settled.not_rose (h : core.Settled) (pin : Pin) :
    core.rose pin = false :=
  Core.not_rose h.before pin

/-- A sensed line is at its level. -/
private theorem line_senseLines (core : Core) (pin : Pin) :
    core.senseLines.line pin = core.level pin := rfl

/-- A line rises where it was low at the last call and is driven high now. -/
theorem Settled.rose (h : core.Settled) (pin : Pin) (now : Core)
    (hbefore : now.linesBefore = core.linesBefore) :
    now.senseLines.rose pin = (!core.level pin && now.level pin) := by
  have hlines : now.senseLines.linesBefore
      = ~~~core.control ||| core.systemData :=
    hbefore.trans (h.before.trans h.lines)
  unfold Core.rose
  rw [hlines, line_senseLines]
  unfold level Pin.isHigh
  simp only [bne, Bool.not_not]

/-- From settled lines on, a line falls where its level does. -/
theorem Settled.fell (h : core.Settled) (pin : Pin) (now : Core)
    (hbefore : now.linesBefore = core.linesBefore) :
    now.senseLines.fell pin = (core.level pin && !now.level pin) := by
  have hlines : now.senseLines.linesBefore
      = ~~~core.control ||| core.systemData :=
    hbefore.trans (h.before.trans h.lines)
  unfold Core.fell
  rw [hlines, line_senseLines]
  rfl

/-- The core with an answer to its lines. -/
def answered (core : Core) (drive : Drive) : Core :=
  { core with counter := drive.counter,
              scanlines := drive.scanlines }.setDeviceData drive.data

end Core

-- ================================================================= devices

namespace Device

variable {π : Type} [Protocol π]

/-- Something that happens to a device. -/
inductive Call
  | writeControl (v : UInt8)
  | writeData (v : UInt8)
  | update (buttons : UInt32)
  | moveTo (x y : Int)
  | setPin58 (v : UInt8)
  | refresh
  | noteRead
  | scanline
  | reset
deriving DecidableEq

def Call.apply : Call → Device π → Device π
  | writeControl v, d => d.writeControl v
  | writeData v, d => d.writeData v
  | update buttons, d => d.update buttons
  | moveTo x y, d => d.moveTo x y
  | setPin58 v, d => d.setPin58 v
  | refresh, d => d.refresh
  | noteRead, d => d.noteRead
  | scanline, d => d.scanline
  | reset, d => d.reset

/-- Chaining a device is no matter of the core. -/
theorem core_chain (d : Device π) (port : Nat) (sub : Option Nat) :
    ((d.chain port sub).toOption.getD d).core = d.core := by
  unfold Device.chain
  cases Protocol.chain d.own port sub <;> rfl

/-- A refreshed device has settled lines. -/
theorem settled_refresh (d : Device π) : d.refresh.core.Settled :=
  ⟨rfl, rfl, rfl⟩

/-- An answer alone leaves the lines as they are. -/
theorem settled_respond {d : Device π} (h : d.core.Settled) :
    d.respond.core.Settled :=
  ⟨h.lines, h.before, rfl⟩

/-- A call leaves the lines settled. -/
theorem settled_apply (c : Call) {d : Device π} (h : d.core.Settled) :
    (c.apply d).core.Settled := by
  cases c
  case scanline =>
    show d.scanline.core.Settled
    unfold scanline
    split
    · exact settled_respond ⟨h.lines, h.before, h.output⟩
    · exact ⟨h.lines, h.before, h.output⟩
  case noteRead =>
    show d.noteRead.core.Settled
    unfold noteRead
    split
    · exact settled_respond ⟨h.lines, h.before, h.output⟩
    · exact h
  all_goals exact settled_refresh _

end Device

end ConsoleBoard.Controller
