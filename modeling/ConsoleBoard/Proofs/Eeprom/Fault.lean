/-
Calls that do not come to their end.

# The three faults

A call on the lines can end in a fault for three reasons: the storage lacks
an index, a line is wired to a bit that a byte or a word does not have, or
the clock count of the byte in flight is full. The first never happens. The
storage has a place for every address that the protocol leads to, so a board
may be changed at any time and any snapshot loaded (`access_lt_storageSize`
says which bytes are touched, `tryReact_eq` that nothing else can fail). The
other two do happen, and no others.

# When

`tryWrite_eq` gives the outcome of a write in every state that a run can
reach: a missing bit comes first, then a full count, and otherwise the write
does what it does without the checks. So a run comes to its end exactly when
each of its writes does (`tryRun_eq_ok_iff`). Nothing checks the bits of a
board when it is selected, and the count is kept in its range only by falls
of the clock that the part sees; a host that minds both is never stopped.
-/
import ConsoleBoard.Eeprom.Fault
import ConsoleBoard.Proofs.Eeprom.Bounds
import ConsoleBoard.Proofs.Eeprom.Counter
import ConsoleBoard.Proofs.Eeprom.Lanes

namespace ConsoleBoard.Eeprom

-- ============================================================ the protocol

/-- The count is full, and the event counts another clock. -/
def Registers.Full (r : Registers) (event : Event) : Prop :=
  event = .rise ∧ r.phase ≠ .standby ∧ r.shiftOut = false ∧ 255 ≤ r.counter

instance (r : Registers) (event : Event) : Decidable (r.Full event) :=
  inferInstanceAs (Decidable (event = .rise ∧ r.phase ≠ .standby
    ∧ r.shiftOut = false ∧ 255 ≤ r.counter))

section

variable {chip : Chip} {e : Eeprom} {event : Event}

/-- A completed byte is inside the storage, if the access is. -/
private theorem tryCompleteByte_eq
    (hload : e.regs.phase = .wordAddress → e.regs.buffer % 2 = 1 →
      (e.regs.buffer / 2).toUInt16.toNat < e.storage.size)
    (hstore : e.regs.phase = .writeData →
      e.regs.address.toNat < e.storage.size) :
    tryCompleteByte chip e = .ok (completeByte chip e) := by
  unfold tryCompleteByte completeByte
  dsimp only
  cases hphase : e.regs.phase with
  | wordAddress =>
      dsimp only
      by_cases hread : e.regs.buffer % 2 = 1
      · rw [if_pos hread, if_pos hread, tryLoad, if_pos (hload hphase hread)]
        rfl
      · rw [if_neg hread, if_neg hread]
        rfl
  | writeData =>
      dsimp only
      rw [tryStore, if_pos (hstore hphase)]
      simp only [← hphase]
      rfl
  | standby | deviceAddress | wordAddressHigh | readData => rfl

/-- A rise that sends is inside the storage, if the access is. -/
private theorem trySendRise_eq (hout : e.regs.shiftOut = true)
    (hinside : ∀ a, e.regs.access? chip .rise = some a →
      a.address.toNat < e.storage.size) :
    trySendRise chip e = .ok (sendRise chip e) := by
  unfold trySendRise sendRise
  dsimp only
  by_cases hnext : (9 ≤ e.regs.counter && !e.regs.sda) = true
  case neg => rw [if_neg hnext, if_neg hnext]
  rw [if_pos hnext, if_pos hnext]
  cases hp : e.regs.phase with
  | readData =>
      have hplace : ((e.regs.address + 1) &&& chip.sizeMask).toNat
          < e.storage.size := by
        refine hinside (.load _) ?_
        unfold Registers.access?
        rw [hp, hout]
        exact if_pos (by simpa using hnext)
      dsimp only
      rw [tryLoad, if_pos hplace]
      simp only [← hp]
      rfl
  | standby | wordAddress | deviceAddress | wordAddressHigh | writeData => rfl

/-- A rise that receives is counted, if there is room for it. -/
private theorem tryReceiveRise_eq (hin : e.regs.shiftOut = false)
    (hroom : e.regs.counter < 255)
    (hinside : ∀ a, e.regs.access? chip .rise = some a →
      a.address.toNat < e.storage.size) :
    tryReceiveRise chip e = .ok (receiveRise chip e) := by
  have hcount : e.regs.countUp = .ok (e.regs.counter + 1) := if_pos hroom
  unfold tryReceiveRise receiveRise
  dsimp only
  rw [hcount]
  show (if e.regs.counter < 8 then _ else _) = _
  by_cases hfew : e.regs.counter < 8
  · rw [if_pos hfew, if_pos hfew]
    rfl
  · rw [if_neg hfew, if_neg hfew]
    have hwhole := Nat.not_lt.1 hfew
    refine tryCompleteByte_eq (fun hphase hread => hinside (.load _) ?_)
      fun hphase => hinside (.store _ e.regs.buffer) ?_
    · have hphase : e.regs.phase = .wordAddress := hphase
      unfold Registers.access?
      rw [hphase, hin]
      exact if_pos ⟨hwhole, hread⟩
    · have hphase : e.regs.phase = .writeData := hphase
      unfold Registers.access?
      rw [hphase, hin]
      exact if_pos hwhole

/-- An event that stays inside of the storage comes to its end unless the count
is full. -/
theorem tryReact_eq (hinside : ∀ a, e.regs.access? chip event = some a →
    a.address.toNat < e.storage.size) :
    tryReact chip e event
      = if e.regs.Full event then .error .overrun
        else .ok (react chip e event) := by
  unfold tryReact
  -- only a rise outside of standby counts or touches the storage
  by_cases hrise : event = .rise ∧ e.regs.phase ≠ .standby
  case neg => rw [if_neg hrise, if_neg fun h => hrise ⟨h.1, h.2.1⟩]
  obtain ⟨rfl, hphase⟩ := hrise
  have hreact : react chip e .rise
      = if e.regs.shiftOut then sendRise chip e else receiveRise chip e := by
    simp only [react, if_neg hphase]
  rw [if_pos ⟨rfl, hphase⟩, hreact]
  by_cases hdir : e.regs.shiftOut = true
  · have hroom : ¬e.regs.Full .rise := fun h => by cases h.2.2.1.symm.trans hdir
    rw [if_pos hdir, if_pos hdir, if_neg hroom]
    exact trySendRise_eq hdir hinside
  · have hin : e.regs.shiftOut = false := Bool.not_eq_true _ ▸ hdir
    rw [if_neg hdir, if_neg hdir]
    by_cases hfull : 255 ≤ e.regs.counter
    · have hcount : e.regs.countUp = .error .overrun :=
        if_neg (Nat.not_lt.2 hfull)
      rw [if_pos (show e.regs.Full .rise from ⟨rfl, hphase, hin, hfull⟩)]
      unfold tryReceiveRise
      dsimp only
      rw [hcount]
      rfl
    · rw [if_neg fun h : e.regs.Full .rise => hfull h.2.2.2]
      exact tryReceiveRise_eq hin (Nat.not_le.1 hfull) hinside

end

-- ============================================================== the writes

/-- A write as it ends. -/
def tryWrite (e : Eeprom) : LineWrite → Except Fault Eeprom
  | .byte address v => e.tryWriteByte address v
  | .word address w => e.tryWriteWord address w

namespace LineWrite

/-- The bit of a line that a write reaches, if the write does not have it. -/
def lacks? (line : Line) : LineWrite → Option Nat
  | byte address _ =>
    if address = line.address ∧ 8 ≤ line.bit then some line.bit else none
  | word address _ =>
    if even address = even line.address ∧ 16 ≤ line.wordBit then
      some line.wordBit
    else none

/-- The level of a line in a write, if the write reaches the line. -/
def level? (line : Line) : LineWrite → Option Bool
  | byte address v => line.inByte? address v
  | word address w => line.inWord? address w

def tryLevel (line : Line) : LineWrite → Except Fault (Option Bool)
  | byte address v => line.tryInByte address v
  | word address w => line.tryInWord address w

private theorem lines_eq (w : LineWrite) (m : Mapper) :
    w.lines m = (w.level? m.scl, w.level? m.sdaIn) := by
  cases w <;> rfl

/-- A bit within the width is read as it is, and the others are a fault. -/
private theorem map_bitOf (width v bit : Nat) :
    (bitOf width v bit).map some
      = if width ≤ bit then .error (.noBit bit)
        else .ok (some (v.testBit bit)) := by
  unfold bitOf
  by_cases hbit : width ≤ bit
  · rw [if_neg (Nat.not_lt.2 hbit), if_pos hbit]
    rfl
  · rw [if_pos (Nat.not_le.1 hbit), if_neg hbit]
    rfl

/-- A level can be taken unless the write has no such bit. -/
theorem tryLevel_eq (w : LineWrite) (line : Line) :
    w.tryLevel line = match w.lacks? line with
      | some bit => .error (.noBit bit)
      | none => .ok (w.level? line) := by
  cases w with
  | byte address v =>
      simp only [tryLevel, Line.tryInByte, lacks?, level?, Line.inByte?,
        map_bitOf]
      by_cases hline : address = line.address
        <;> by_cases hbit : 8 ≤ line.bit <;>
        simp [hline, hbit]
  | word address v =>
      simp only [tryLevel, Line.tryInWord, lacks?, level?, Line.inWord?,
        map_bitOf]
      by_cases hline : even address = even line.address <;>
        by_cases hbit : 16 ≤ line.wordBit <;> simp [hline, hbit]

end LineWrite

/-- The first line that a write reaches and that is wired to a bit which the
write does not have. -/
def missingBit? (e : Eeprom) (w : LineWrite) : Option Nat :=
  e.mapper.bind fun m => (w.lacks? m.scl).or (w.lacks? m.sdaIn)

/-- A clock rises in sight of the part, and the count is full. -/
def Overruns (e : Eeprom) (w : LineWrite) : Prop :=
  e.isTypeSet = true ∧ e.regs.Full (e.event w)

instance (e : Eeprom) (w : LineWrite) : Decidable (e.Overruns w) :=
  inferInstanceAs (Decidable (e.isTypeSet = true ∧ e.regs.Full (e.event w)))

section

variable {e : Eeprom} {m : Mapper} {w : LineWrite}

/-- Driven levels are as without a check, if the access is inside. -/
private theorem tryWriteLevels_eq (hm : e.mapper = some m) (scl sdaIn : Bool)
    (hinside : m.chip.sizeMask ≠ 0 → ∀ a,
      (e.regs.driven scl sdaIn).access? m.chip (e.regs.driven scl sdaIn).event
        = some a →
        a.address.toNat < e.storage.size) :
    e.tryWriteLevels scl sdaIn
      = if m.chip.sizeMask ≠ 0
            ∧ e.regs.Full (e.regs.driven scl sdaIn).event then
          .error .overrun
        else .ok (e.writeLevels scl sdaIn) := by
  obtain ⟨mapper, storage, regs⟩ := e
  obtain rfl : mapper = some m := hm
  rw [writeLevels_eq rfl]
  unfold tryWriteLevels
  simp only [bne_iff_ne, ne_eq, ite_not]
  by_cases hmask : m.chip.sizeMask = 0
  · rw [if_pos hmask, if_pos hmask, if_neg fun h => h.1 hmask]
    rfl
  · have hreact := tryReact_eq (e := ⟨some m, storage, regs.driven scl sdaIn⟩)
      (hinside hmask)
    rw [if_neg hmask, if_neg hmask]
    refine (congrArg (Except.map settle) hreact).trans ?_
    by_cases hfull : (regs.driven scl sdaIn).Full (regs.driven scl sdaIn).event
    · rw [if_pos hfull, if_pos ⟨hmask, hfull⟩]
      rfl
    · rw [if_neg hfull, if_neg fun h => hfull h.2]
      rfl

private theorem tryWrite_of_mapper (hm : e.mapper = some m) (w : LineWrite) :
    e.tryWrite w = (do
      e.tryWriteLines (← w.tryLevel m.scl) (← w.tryLevel m.sdaIn)) := by
  cases w with
  | byte address v => simp only [tryWrite, tryWriteByte, hm, LineWrite.tryLevel]
  | word address w => simp only [tryWrite, tryWriteWord, hm, LineWrite.tryLevel]

/-- A write on the lines overruns, or is as without a check. -/
private theorem tryWriteLines_eq (hm : e.mapper = some m) {w : LineWrite}
    (hinside : ∀ a, e.access? w = some a → a.address.toNat < e.storage.size) :
    e.tryWriteLines (w.level? m.scl) (w.level? m.sdaIn)
      = if e.Overruns w then .error .overrun else .ok (e.write w) := by
  rw [write_eq_writeLines hm, w.lines_eq m]
  unfold tryWriteLines writeLines
  dsimp only
  by_cases hnone : ((w.level? m.scl).isNone && (w.level? m.sdaIn).isNone) = true
  · -- no line of the board is in the write, so no event and no count
    have hquiet : e.event w = .quiet := by
      obtain ⟨hscl, hsda⟩ := Bool.and_eq_true_iff.1 hnone
      unfold event seen?
      rw [hm, Option.bind_some, w.lines_eq m, Option.isNone_iff_eq_none.1 hscl,
        Option.isNone_iff_eq_none.1 hsda]
      rfl
    rw [if_pos hnone, if_pos hnone, if_neg]
    intro h
    cases hquiet.symm.trans h.2.1
  · have hseen : e.seen? w = some (m.chip, e.regs.driven
        ((w.level? m.scl).getD e.regs.sclBefore)
        ((w.level? m.sdaIn).getD e.regs.sdaInBefore)) := by
      unfold seen?
      rw [hm, Option.bind_some, w.lines_eq m]
      cases hscl : w.level? m.scl with
      | some scl => rfl
      | none =>
          cases hsda : w.level? m.sdaIn with
          | some sdaIn => rfl
          | none => simp [hscl, hsda] at hnone
    have hevent : e.event w = (e.regs.driven
        ((w.level? m.scl).getD e.regs.sclBefore)
        ((w.level? m.sdaIn).getD e.regs.sdaInBefore)).event := by
      unfold event
      rw [hseen]
    have hlevels :=
      tryWriteLevels_eq hm ((w.level? m.scl).getD e.regs.sclBefore)
        ((w.level? m.sdaIn).getD e.regs.sdaInBefore) fun hmask a ha =>
        hinside a (by
        unfold access?
        rw [hseen]
        exact (if_neg hmask).trans ha)
    rw [if_neg hnone, if_neg hnone, hlevels, ← hevent]
    have hset : e.isTypeSet = true ↔ m.chip.sizeMask ≠ 0 := isTypeSet_iff hm
    by_cases hfull : e.Overruns w
    · rw [if_pos hfull, if_pos ⟨hset.1 hfull.1, hfull.2⟩]
    · rw [if_neg hfull, if_neg fun h => hfull ⟨hset.2 h.1, h.2⟩]

/-- How a write ends that stays inside of the storage. The bits of the lines
are looked at before the part reacts. -/
theorem tryWrite_eq (hinside : ∀ a, e.access? w = some a →
    a.address.toNat < e.storage.size) :
    e.tryWrite w = match e.missingBit? w with
      | some bit => .error (.noBit bit)
      | none => if e.Overruns w then .error .overrun else .ok (e.write w) := by
  unfold missingBit?
  cases hm : e.mapper with
  | none =>
      have hunset : e.isTypeSet = false := by
        unfold isTypeSet
        rw [hm]
      have hroom : ¬e.Overruns w := fun h => by cases hunset.symm.trans h.1
      rw [Option.bind_none, if_neg hroom]
      cases w with
      | byte address v =>
          simp only [tryWrite, tryWriteByte, write, writeByte, hm]
      | word address w =>
          simp only [tryWrite, tryWriteWord, write, writeWord, hm]
  | some m =>
      rw [tryWrite_of_mapper hm, w.tryLevel_eq m.scl, w.tryLevel_eq m.sdaIn,
        Option.bind_some]
      -- the clock bit is looked at before the data bit, and both before the
      -- part
      cases hscl : w.lacks? m.scl with
      | some bit => rfl
      | none =>
          rw [Option.none_or]
          cases hsda : w.lacks? m.sdaIn with
          | some bit => rfl
          | none => exact tryWriteLines_eq hm hinside

end

-- =============================================================== every run

/-- A call as it ends. Only writes can end in a fault. -/
def tryCall (e : Eeprom) : Call → Except Fault Eeprom
  | .write w => e.tryWrite w
  | c => .ok (e.call c)

/-- Calls one after the other, up to the first that ends in a fault. -/
def tryRun (e : Eeprom) (calls : List Call) : Except Fault Eeprom :=
  calls.foldlM tryCall e

/-- A call comes to its end. -/
def Returns (e : Eeprom) : Call → Prop
  | .write w => e.missingBit? w = none ∧ ¬e.Overruns w
  | _ => True

/-- A call that a careful host makes: a board that it selects has its lines on
bits of a byte, and no fall of the clock is hidden. -/
def Careful (e : Eeprom) (c : Call) : Prop :=
  FallSeen e c ∧ ∀ m ∈ c.selected?, m.InByte

instance (m : Mapper) : Decidable m.InByte :=
  decidable_of_iff (m.scl.bit < 8 ∧ m.sdaIn.bit < 8 ∧ m.sdaOut.bit < 8)
    ⟨fun h => ⟨h.1, h.2.1, h.2.2⟩, fun h => ⟨h.scl, h.sdaIn, h.sdaOut⟩⟩

instance (e : Eeprom) (c : Call) : Decidable (Careful e c) :=
  inferInstanceAs (Decidable (FallSeen e c ∧ ∀ m ∈ c.selected?, m.InByte))

section

variable {e : Eeprom} {c : Call}

/-- In a state that a run reaches, a write ends for the reasons given, and never
for an index. -/
theorem Stored.tryWrite_eq (h : Stored e) (w : LineWrite) :
    e.tryWrite w = match e.missingBit? w with
      | some bit => .error (.noBit bit)
      | none => if e.Overruns w then .error .overrun else .ok (e.write w) :=
  Eeprom.tryWrite_eq fun a ha =>
    h.size.symm ▸ within_storageMask_iff.1
      ((h.written (written_write e w)).1 a ha)

/-- On a stored part, a call that returns is as without a check. -/
theorem Stored.tryCall_eq_ok (h : Stored e) (hreturns : Returns e c) :
    e.tryCall c = .ok (e.call c) := by
  cases c with
  | write w =>
      show e.tryWrite w = .ok (e.write w)
      rw [h.tryWrite_eq, hreturns.1]
      exact if_neg hreturns.2
  | select _ | selectMapper _ | reset | restore _ => rfl

/-- On a stored part, a call that does not return gives no state. -/
theorem Stored.tryCall_ne_ok (h : Stored e) (hreturns : ¬Returns e c)
    (e' : Eeprom) :
    e.tryCall c ≠ .ok e' := by
  cases c with
  | write w =>
      show e.tryWrite w ≠ .ok e'
      rw [h.tryWrite_eq]
      cases hbit : e.missingBit? w with
      | some bit => nofun
      | none =>
          have hfull : e.Overruns w := Classical.not_not.1 fun hroom =>
            hreturns ⟨hbit, hroom⟩
          simp only [if_pos hfull]
          nofun
  | select _ | selectMapper _ | reset | restore _ =>
      exact absurd trivial hreturns

/-- A run comes to its end exactly when each of its writes does. -/
theorem Stored.tryRun_eq_ok_iff (h : Stored e) (calls : List Call) :
    e.tryRun calls = .ok (e.run calls) ↔ Along Returns e calls := by
  induction calls generalizing e with
  | nil => exact iff_of_true rfl trivial
  | cons c rest ih =>
      have hnext : Stored (e.call c) := h.called (called_call e c)
      have hrun : e.tryRun (c :: rest)
          = (e.tryCall c).bind (tryRun · rest) := rfl
      rw [hrun]
      by_cases hreturns : Returns e c
      · rw [h.tryCall_eq_ok hreturns]
        exact (ih hnext).trans ⟨fun h => ⟨hreturns, h⟩, fun h => h.2⟩
      · refine iff_of_false ?_ fun h => hreturns h.1
        cases hcall : e.tryCall c with
        | error f => nofun
        | ok e' => exact absurd hcall (h.tryCall_ne_ok hreturns e')

-- =========================================================== careful hosts

/-- The lines are on bits of a byte, and the count is in its range for good. -/
structure Tidy (e : Eeprom) : Prop extends Stored e where
  bits : ∀ m, e.mapper = some m → m.InByte
  counter : e.regs.counter ≤ 9
  inTime : ¬e.regs.Overdue

private theorem tidy_blank : Tidy blank :=
  ⟨stored_blank, nofun, Nat.zero_le 9, by decide⟩

/-- A line inside a byte lacks no bit. -/
theorem LineWrite.lacks?_eq_none {line : Line} (h : line.bit < 8)
    (w : LineWrite) :
    w.lacks? line = none := by
  have hword : line.wordBit < 16 := by
    unfold Line.wordBit
    split <;> omega
  cases w with
  | byte address v => exact if_neg fun hlacks => Nat.not_lt.2 hlacks.2 h
  | word address v => exact if_neg fun hlacks => Nat.not_lt.2 hlacks.2 hword

/-- With both lines inside a byte no bit is missing. -/
private theorem missingBit?_eq_none (h : ∀ m, e.mapper = some m → m.InByte)
    (w : LineWrite) :
    e.missingBit? w = none := by
  unfold missingBit?
  cases hm : e.mapper with
  | none => rfl
  | some m =>
      rw [Option.bind_some, LineWrite.lacks?_eq_none (h m hm).scl,
        LineWrite.lacks?_eq_none (h m hm).sdaIn]
      rfl

/-- On a tidy part every call returns. -/
theorem Tidy.returns (h : Tidy e) (c : Call) : Returns e c := by
  cases c with
  | write w =>
      refine ⟨missingBit?_eq_none h.bits w, fun hfull => ?_⟩
      have hcounter := h.counter
      have hlarge := hfull.2.2.2.2
      omega
  | select _ | selectMapper _ | reset | restore _ => trivial

/-- A call leaves the lines inside a byte, if those it selects are. -/
theorem Called.inByte {e' : Eeprom} (hcalled : Called e c e')
    (hbits : ∀ m, e.mapper = some m → m.InByte)
    (hselected : ∀ m ∈ c.selected?, m.InByte) :
    ∀ m, e'.mapper = some m → m.InByte := by
  cases hcalled with
  | refused _ _ | erased _ | restored _ => exact hbits
  | @selected _ m _ hsome _ =>
      intro m' hm'
      exact Option.some.inj hm' ▸ hselected m hsome
  | wrote w => exact fun m hm => hbits m ((mapper_write e w).symm.trans hm)

theorem Tidy.call (h : Tidy e) (hcareful : Careful e c) : Tidy (e.call c) := by
  have hcalled := called_call e c
  refine ⟨h.toStored.called hcalled, hcalled.inByte h.bits hcareful.2, ?_,
    not_overdue_call h.inTime hcareful.1⟩
  refine (counter_call_le_iff h.counter c).2 ?_
  cases c with
  | write w => exact fun _ _ => h.inTime
  | select _ | selectMapper _ | reset | restore _ => trivial

/-- Careful calls all return. -/
theorem Tidy.along_returns (h : Tidy e) {calls : List Call}
    (hcareful : Along Careful e calls) : Along Returns e calls := by
  induction calls generalizing e with
  | nil => trivial
  | cons c rest ih => exact ⟨h.returns c, ih (h.call hcareful.1) hcareful.2⟩

/-- Reads of a part whose lines are on bits of a byte come to their end. -/
theorem tryRead_eq (hbits : ∀ m, e.mapper = some m → m.InByte) (a : UInt32) :
    e.tryReadByte a = .ok (e.readByte a)
      ∧ e.tryReadWord a = .ok (e.readWord a) := by
  unfold tryReadByte tryReadWord
  cases hm : e.mapper with
  | none => exact ⟨rfl, rfl⟩
  | some m =>
      have hbyte := (hbits m hm).sdaOut
      have hword : m.sdaOut.wordBit < 16 := by
        unfold Line.wordBit
        split <;> omega
      exact ⟨if_neg fun h => Nat.not_lt.2 h.2 hbyte,
        if_neg fun h => Nat.not_lt.2 h.2 hword⟩

-- ============================================================= the theorem

/-- Whatever boards are selected and refused, in whatever phase they are changed
and whatever snapshots are loaded, no access of the storage falls outside of
it. The accesses are all there are: no other byte is changed by a write, and no
other is looked at. What can still end a write in a fault is a line on a bit
that the write does not have, and a clock behind a full count, and that is all.
So a run comes to its end exactly when none of its writes meets these, and no
write does, and no read, if the boards are wired to bits of a byte and no fall
of the clock is hidden. -/
theorem faults_never_outside (calls : List Call) (w : LineWrite) :
    let e := blank.run calls
    (∀ a, e.access? w = some a →
        a.address.toNat < storageSize ∧ a.address.toNat < e.storage.size)
      ∧ (e.write w).storage = Access.commit e.storage (e.access? w)
      ∧ (∀ s, (∀ a, e.access? w = some (.load a) →
          stored { e with storage := s } a = e.stored a) →
        (write { e with storage := s } w).regs = (e.write w).regs)
      ∧ (e.tryWrite w = match e.missingBit? w with
          | some bit => .error (.noBit bit)
          | none => if e.Overruns w then .error .overrun else .ok (e.write w))
      ∧ (blank.tryRun calls = .ok e ↔ Along Returns blank calls)
      ∧ (Along Careful blank calls → blank.tryRun calls = .ok e
          ∧ e.tryWrite w = .ok (e.write w)
          ∧ ∀ a, e.tryReadByte a = .ok (e.readByte a)
              ∧ e.tryReadWord a = .ok (e.readWord a)) := by
  intro e
  obtain ⟨hplace, hcommit, hlook⟩ := access_lt_storageSize calls w
  have hstored : Stored e := stored_run calls
  have hrun := stored_blank.tryRun_eq_ok_iff calls
  refine ⟨hplace, hcommit, hlook, hstored.tryWrite_eq w, hrun,
    fun hcareful => ?_⟩
  have htidy : Tidy e := run_keeps Tidy.call tidy_blank hcareful
  exact ⟨hrun.2 (tidy_blank.along_returns hcareful),
    hstored.tryCall_eq_ok (htidy.returns (.write w)), tryRead_eq htidy.bits⟩

/-- A write to the last byte of all: the snapshot has more bits of address than
there are, and the part is selected behind it. -/
theorem faults_never_outside_last :
    let line (bit : Nat) : Line := ⟨0x200001, bit⟩
    let m : Mapper :=
      ⟨⟨"largest", 0x3FFF, 0x3FFF, .single⟩, line 1, line 0, line 0⟩
    let r : Registers :=
      { address := 0xFFFF, buffer := 0x5A, phase := .writeData }
    let calls : List Call :=
      [.restore { r with counter := 8, sclBefore := false }, .selectMapper m]
    let e := blank.run calls
    e.access? (m.put true true) = some (.store 0x3FFF 0x5A)
      ∧ 0x3FFF < e.storage.size
      ∧ Along Careful blank calls
      ∧ e.tryWrite (m.put true true) = .ok (e.write (m.put true true)) := by
  intro line m r calls e
  have hstore : e.access? (m.put true true) = some (.store 0x3FFF 0x5A) := by
    decide +kernel
  have hcareful : Along Careful blank calls := by decide +kernel
  obtain ⟨hplace, -, -, -, -, hends⟩ :=
    faults_never_outside calls (m.put true true)
  exact ⟨hstore, (hplace _ hstore).2, hcareful, (hends hcareful).2.1⟩

-- ============================================================== the faults

/-- The first known board with its clock on a bit that a byte does not have. -/
def overwired : Mapper := { deaf with chip := .x24C01, scl := ⟨0x200001, 8⟩ }

/-- A byte written to the first known board, up to the clock of the answer. The
other part is on the same lines. -/
def answered : List Call :=
  .select (some 0)
    :: ([deaf.put true false] ++ deaf.bytes [0x80]
      ++ deaf.clocks (bits 0x5A)).map .write
    ++ [.write (deaf.put true true)]

/-- Each hidden fall is one more on the counter of an answered byte. -/
private theorem counter_hiddenFalls (n : Nat) :
    (blank.run (answered
        ++ (List.replicate n hiddenFall).flatten)).regs.Answered
      ∧ (blank.run
        (answered ++ (List.replicate n hiddenFall).flatten)).regs.counter
          = 9 + n := by
  induction n with
  | zero => decide +kernel
  | succ n ih =>
      have hrun : blank.run
          (answered ++ (List.replicate (n + 1) hiddenFall).flatten)
          = (blank.run (answered ++ (List.replicate n hiddenFall).flatten)).run
              hiddenFall := by
        rw [List.replicate_succ', List.flatten_append, ← List.append_assoc]
        simp only [List.flatten_cons, List.flatten_nil, List.append_nil]
        exact List.foldl_append
      obtain ⟨hanswered, hcounter⟩ := counter_hiddenFall ih.1
      rw [hrun]
      exact ⟨hanswered, by omega⟩

/-- A count that fits into a byte still does, unless it was full. -/
theorem Reaction.counter_le_byte {chip : Chip} {event : Event}
    {access : Option Access} {e' : Eeprom} (h : Reaction chip e event access e')
    (hcounter : e.regs.counter ≤ 255) (hroom : ¬e.regs.Full event) :
    e'.regs.counter ≤ 255 := by
  cases h with
  | byteIn hphase hin hwhole =>
      have hphase' : e.regs.phase ≠ .standby := by simp [hphase]
      have hfew : ¬255 ≤ e.regs.counter :=
        fun hfull => hroom ⟨rfl, hphase', hin, hfull⟩
      show e.regs.counter + 1 ≤ 255
      omega
  | bitIn _ _ hfew | bitOut _ _ hfew =>
      show e.regs.counter + 1 ≤ 255
      omega
  | fallIn =>
      show (if 9 ≤ e.regs.counter then 0 else e.regs.counter) ≤ 255
      split <;> omega
  | quiet | riseStandby | fallStandby | riseOut | fallOut => exact hcounter
  | stop | start | startOther | addressRead | addressWrite | strayIn | nextOut
  | strayOut =>
      exact Nat.zero_le 255
  | releaseOut => exact (by decide : 9 ≤ 255)

/-- A call that returns leaves the counter in a byte. -/
theorem Returns.counter_le (hreturns : Returns e c)
    (hcounter : e.regs.counter ≤ 255) :
    (e.call c).regs.counter ≤ 255 := by
  have hcalled := called_call e c
  cases c with
  | write w =>
      show (e.write w).regs.counter ≤ 255
      have hwritten := written_write e w
      generalize e.access? w = access, e.write w = e' at hwritten
      cases hwritten with
      | missed _ => exact hcounter
      | unheard _ _ _ => exact hcounter
      | reacted scl sdaIn hm hmask hevent hrule =>
          exact hrule.counter_le_byte hcounter fun hfull =>
            hreturns.2 ⟨(isTypeSet_iff hm).2 hmask, hfull⟩
  | reset => exact Nat.zero_le 255
  | restore r => exact Nat.le_trans (Nat.min_le_right r.counter 9) (by decide)
  | select index =>
      cases index with
      | none => exact Nat.zero_le 255
      | some index => exact (hcalled.eq_of_selects trivial).1 ▸ hcounter
  | selectMapper m => exact (hcalled.eq_of_selects trivial).1 ▸ hcounter

/-- The count of a run that comes to its end fits into a byte, call after
call. -/
theorem counter_le_of_returns (hcounter : e.regs.counter ≤ 255)
    {calls : List Call} (hreturns : Along Returns e calls) :
    (e.run calls).regs.counter ≤ 255 :=
  run_keeps (fun hcounter hreturns => hreturns.counter_le hcounter)
    hcounter hreturns

/-- With the lines on bits of a byte, a run that does not come to its end has
overrun the count. -/
theorem Stored.tryRun_eq_overrun (h : Stored e)
    (hbits : ∀ m, e.mapper = some m → m.InByte) {calls : List Call}
    (hselected : ∀ c ∈ calls, ∀ m ∈ c.selected?, m.InByte)
    (hreturns : ¬Along Returns e calls) : e.tryRun calls = .error .overrun := by
  induction calls generalizing e with
  | nil => exact absurd trivial hreturns
  | cons c rest ih =>
      have hrun : e.tryRun (c :: rest)
          = (e.tryCall c).bind (tryRun · rest) := rfl
      have hcalled := called_call e c
      rw [hrun]
      by_cases hfirst : Returns e c
      · rw [h.tryCall_eq_ok hfirst]
        exact ih (h.called hcalled)
          (hcalled.inByte hbits (hselected c List.mem_cons_self))
          (fun c' hc' => hselected c' (List.mem_cons_of_mem c hc'))
          fun hrest => hreturns ⟨hfirst, hrest⟩
      · -- only a write can fail, and with its bits there, only by the count
        cases c with
        | write w =>
            have hbit := missingBit?_eq_none hbits w
            have hfull : e.Overruns w := Classical.not_not.1 fun hroom =>
              hfirst ⟨hbit, hroom⟩
            show (e.tryWrite w).bind _ = _
            rw [h.tryWrite_eq, hbit]
            simp only [if_pos hfull]
            rfl
        | select _ | selectMapper _ | reset | restore _ =>
            exact absurd trivial hfirst

/-- So the bus can end in a fault, in two calls for a board that is accepted,
and with known boards and all lines on bits of a byte when enough falls of the
clock are hidden. -/
theorem bus_faults :
    blank.tryRun [.selectMapper overwired, .write (.byte 0x200001 0)]
        = .error (.noBit 8)
      ∧ blank.tryRun (answered ++ (List.replicate 247 hiddenFall).flatten)
        = .error .overrun := by
  refine ⟨rfl, ?_⟩
  refine stored_blank.tryRun_eq_overrun nofun (fun c hc => ?_)
    fun hreturns => ?_
  · have hanswered : ∀ c ∈ answered, ∀ m ∈ c.selected?, m.InByte := by
      decide +kernel
    have hhidden : ∀ c ∈ hiddenFall, ∀ m ∈ c.selected?, m.InByte := by
      decide +kernel
    rcases List.mem_append.1 hc with hc | hc
    · exact hanswered c hc
    · obtain ⟨part, hpart, hmem⟩ := List.mem_flatten.1 hc
      exact hhidden c (List.eq_of_mem_replicate hpart ▸ hmem)
  · have hfits := counter_le_of_returns (e := blank) (Nat.zero_le 255) hreturns
    rw [(counter_hiddenFalls 247).2] at hfits
    omega

end

end ConsoleBoard.Eeprom
