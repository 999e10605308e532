/-
What an event on the lines does to a part, said once.

# The rules

`Reaction` lists the protocol rule by rule: the event, what has to hold of
the registers, the access of the storage that is made, and the registers
after. `reaction_react` says that the engine follows the rules, so that a
law of the protocol is a case analysis with one case for each rule, and
nothing else has to open the engine.

# The accesses

The storage is read and written one byte at a time, and only where a rule
says so. `Registers.access?` reads off the registers which byte that is,
before it happens. The rules agree with it (`Reaction.access?_eq`), they name
every byte that an event stores (`Reaction.storage_eq`), and they look at no
byte but the one that they load (`Reaction.withStorage`).
-/
import ConsoleBoard.Eeprom.Ports

namespace ConsoleBoard.Eeprom

-- ============================================================ the accesses

/-- An access of the storage by the protocol. -/
inductive Access
  | load (address : UInt16)
  | store (address : UInt16) (v : UInt8)
deriving DecidableEq

namespace Access

def address : Access → UInt16
  | load address => address
  | store address _ => address

def isStore : Access → Bool
  | load _ => false
  | store _ _ => true

/-- The storage after an access, if there is one. -/
def commit (storage : Array UInt8) : Option Access → Array UInt8
  | some (store address v) => storage.setIfInBounds address.toNat v
  | _ => storage

end Access

/-- The access that an event makes. A byte is loaded behind an address byte
that asks for it and behind every byte that the processor acknowledges, and
stored in the answer to every other byte. -/
def Registers.access? (chip : Chip) (r : Registers) (event : Event) :
    Option Access :=
  match event, r.phase, r.shiftOut with
  | .rise, .wordAddress, false =>
    if 8 ≤ r.counter ∧ r.buffer % 2 = 1 then
      some (.load (r.buffer / 2).toUInt16)
    else none
  | .rise, .writeData, false =>
    if 8 ≤ r.counter then some (.store r.address r.buffer) else none
  | .rise, .readData, true =>
    if 9 ≤ r.counter ∧ r.sda = false then
      some (.load ((r.address + 1) &&& chip.sizeMask))
    else none
  | _, _, _ => none

-- =============================================================== the rules

/-- The protocol: an event, the access it makes and what it leads to. -/
inductive Reaction (chip : Chip) (e : Eeprom) :
    Event → Option Access → Eeprom → Prop
  | stop : Reaction chip e .stop none { e with regs := e.regs.stand }
  | start (hsingle : chip.addressing = .single) :
      Reaction chip e .start none
        { e with regs := { e.regs.resetShift with phase := .wordAddress } }
  /-- Any other part only forgets the byte in flight. -/
  | startOther (hother : chip.addressing ≠ .single) :
      Reaction chip e .start none { e with regs := e.regs.resetShift }
  | quiet : Reaction chip e .quiet none e
  | riseStandby (hphase : e.regs.phase = .standby) : Reaction chip e
      .rise none e
  | fallStandby (hphase : e.regs.phase = .standby) : Reaction chip e
      .fall none e
  /-- One of the eight bits of a received byte. -/
  | bitIn (hphase : e.regs.phase ≠ .standby) (hin : e.regs.shiftOut = false)
      (hcounter : e.regs.counter < 8) :
      Reaction chip e .rise none
        { e with regs := { e.regs with
            buffer := e.regs.buffer * 2 + (if e.regs.sda then 1 else 0)
            counter := e.regs.counter + 1 } }
  /-- The answer to an address byte that asks for a read. -/
  | addressRead (hphase : e.regs.phase = .wordAddress)
      (hin : e.regs.shiftOut = false)
      (hcounter : 8 ≤ e.regs.counter) (hread : e.regs.buffer % 2 = 1) :
      Reaction chip e .rise (some (.load (e.regs.buffer / 2).toUInt16))
        { e with regs := { e.regs with
            sdaOut := false, address := (e.regs.buffer / 2).toUInt16,
            rw := true, counter := 0
            buffer := e.stored (e.regs.buffer / 2).toUInt16
            shiftOut := true, phase := .readData } }
  /-- The answer to an address byte that announces a write. -/
  | addressWrite (hphase : e.regs.phase = .wordAddress)
      (hin : e.regs.shiftOut = false)
      (hcounter : 8 ≤ e.regs.counter) (hwrite : e.regs.buffer % 2 ≠ 1) :
      Reaction chip e .rise none
        { e with regs := { e.regs with
            sdaOut := false, address := (e.regs.buffer / 2).toUInt16,
            rw := false, counter := 0
            buffer := 0, shiftOut := false, phase := .writeData } }
  /-- The answer to a byte of data. -/
  | byteIn (hphase : e.regs.phase = .writeData) (hin : e.regs.shiftOut = false)
      (hcounter : 8 ≤ e.regs.counter) :
      Reaction chip e .rise (some (.store e.regs.address e.regs.buffer))
        { e with
          storage := e.storage.setIfInBounds e.regs.address.toNat e.regs.buffer
          regs := { e.regs with
            sdaOut := false, counter := e.regs.counter + 1, dirty := true
            address := nextInPage chip e.regs.address, buffer := 0 } }
  /-- A whole byte that no phase expects. -/
  | strayIn (hphase : e.regs.phase ≠ .standby)
      (haddress : e.regs.phase ≠ .wordAddress)
      (hdata : e.regs.phase ≠ .writeData) (hin : e.regs.shiftOut = false)
      (hcounter : 8 ≤ e.regs.counter) :
      Reaction chip e .rise none { e with regs := e.regs.stand }
  /-- The fall of a clock in which the part receives or has answered. -/
  | fallIn (hphase : e.regs.phase ≠ .standby) (hin : e.regs.shiftOut = false) :
      Reaction chip e .fall none
        { e with regs := { e.regs with
            sdaOut := true,
            counter := if 9 ≤ e.regs.counter then 0 else e.regs.counter } }
  /-- A sent byte is acknowledged, and the next one loaded. -/
  | nextOut (hphase : e.regs.phase = .readData) (hout : e.regs.shiftOut = true)
      (hcounter : 9 ≤ e.regs.counter) (hlow : e.regs.sda = false) :
      Reaction chip e .rise
        (some (.load ((e.regs.address + 1) &&& chip.sizeMask)))
        { e with regs := { e.regs with
            address := (e.regs.address + 1) &&& chip.sizeMask, counter := 0
            buffer := e.stored ((e.regs.address + 1) &&& chip.sizeMask) } }
  /-- An acknowledgement of a byte that no phase sends. -/
  | strayOut (hphase : e.regs.phase ≠ .standby)
      (hread : e.regs.phase ≠ .readData)
      (hout : e.regs.shiftOut = true) (hcounter : 9 ≤ e.regs.counter)
      (hlow : e.regs.sda = false) :
      Reaction chip e .rise none { e with regs := e.regs.stand }
  /-- The processor samples a bit, or does not acknowledge the byte. -/
  | riseOut (hphase : e.regs.phase ≠ .standby) (hout : e.regs.shiftOut = true)
      (hheld : ¬(9 ≤ e.regs.counter ∧ e.regs.sda = false)) : Reaction chip e
        .rise none e
  /-- The next bit of a sent byte. -/
  | bitOut (hphase : e.regs.phase ≠ .standby) (hout : e.regs.shiftOut = true)
      (hcounter : e.regs.counter < 8) :
      Reaction chip e .fall none
        { e with regs := { e.regs with
            sdaOut := decide (128 ≤ e.regs.buffer), buffer := e.regs.buffer * 2
            counter := e.regs.counter + 1 } }
  /-- The line is let go for the processor's answer. -/
  | releaseOut (hphase : e.regs.phase ≠ .standby)
      (hout : e.regs.shiftOut = true)
      (hcounter : e.regs.counter = 8) :
      Reaction chip e .fall none { e with
        regs := { e.regs with sdaOut := true, counter := 9 } }
  | fallOut (hphase : e.regs.phase ≠ .standby) (hout : e.regs.shiftOut = true)
      (hcounter : 9 ≤ e.regs.counter) : Reaction chip e .fall none e

section

variable {chip : Chip} {e : Eeprom} {event : Event} {access : Option Access}
  {e' : Eeprom}

/-- The access of a rule is the one read off the registers. -/
theorem Reaction.access?_eq (h : Reaction chip e event access e') :
    e.regs.access? chip event = access := by
  cases h with
  | bitIn hphase hin hcounter =>
      have hfew : ¬8 ≤ e.regs.counter := by omega
      cases h : e.regs.phase with
      | _ => simp [Registers.access?, h, hin, hfew]
  | riseOut hphase hout hheld =>
      cases h : e.regs.phase with
      | _ => simp [Registers.access?, h, hout, hheld]
  | strayIn hphase haddress hdata hin hcounter =>
      cases h : e.regs.phase with
      | _ => simp_all [Registers.access?]
  | strayOut hphase hread hout hcounter hlow =>
      cases h : e.regs.phase with
      | _ => simp_all [Registers.access?]
  | riseStandby hphase => simp [Registers.access?, hphase]
  | addressRead hphase hin hcounter hread =>
      simp [Registers.access?, hphase, hin, hcounter, hread]
  | addressWrite hphase hin hcounter hwrite =>
      simp [Registers.access?, hphase, hin, hwrite]
  | byteIn hphase hin hcounter =>
      simp [Registers.access?, hphase, hin, hcounter]
  | nextOut hphase hout hcounter hlow =>
      simp [Registers.access?, hphase, hout, hcounter, hlow]
  | _ => rfl

-- the engine reads its registers through several updates of them, so the
-- four edges are followed on the bare fields

private theorem reaction_riseIn (hphase : e.regs.phase ≠ .standby)
    (hin : e.regs.shiftOut = false) :
    ∃ access, Reaction chip e .rise access (receiveRise chip e) := by
  obtain ⟨mapper, storage, scl, sdaIn, sdaOut, sclBefore, sdaInBefore,
    sdaOutBefore, address, counter, asked, shiftOut, buffer, phase,
    dirty⟩ := e
  dsimp only at hphase hin
  subst hin
  unfold receiveRise
  dsimp only
  by_cases hcounter : counter < 8
  · rw [if_pos hcounter]
    exact ⟨none, .bitIn hphase rfl hcounter⟩
  · have hwhole : 8 ≤ counter := by omega
    rw [if_neg hcounter]
    unfold completeByte
    cases phase with
    | standby => exact absurd rfl hphase
    | wordAddress =>
        dsimp only
        by_cases hread : buffer % 2 = 1
        · rw [if_pos hread]
          exact ⟨_, .addressRead rfl rfl hwhole hread⟩
        · rw [if_neg hread]
          exact ⟨none, .addressWrite rfl rfl hwhole hread⟩
    | writeData => exact ⟨_, .byteIn rfl rfl hwhole⟩
    | deviceAddress | wordAddressHigh | readData =>
        exact ⟨none, .strayIn hphase (by simp) (by simp) rfl hwhole⟩

private theorem reaction_riseOut (hphase : e.regs.phase ≠ .standby)
    (hout : e.regs.shiftOut = true) :
    ∃ access, Reaction chip e .rise access (sendRise chip e) := by
  obtain ⟨mapper, storage, scl, sdaIn, sdaOut, sclBefore, sdaInBefore,
    sdaOutBefore, address, counter, asked, shiftOut, buffer, phase,
    dirty⟩ := e
  dsimp only at hphase hout
  subst hout
  unfold sendRise
  dsimp only
  by_cases hnext : 9 ≤ counter ∧ (sdaIn && sdaOut) = false
  · obtain ⟨hcounter, hlow⟩ := hnext
    rw [if_pos (by simp only [Registers.sda, hcounter, hlow]; rfl)]
    cases phase with
    | standby => exact absurd rfl hphase
    | readData => exact ⟨_, .nextOut rfl rfl hcounter hlow⟩
    | wordAddress | deviceAddress | wordAddressHigh | writeData =>
        exact ⟨none, .strayOut hphase (by simp) rfl hcounter hlow⟩
  · rw [if_neg (by simpa [Registers.sda] using hnext)]
    exact ⟨none, .riseOut hphase rfl hnext⟩

private theorem reaction_fallOut (hphase : e.regs.phase ≠ .standby)
    (hout : e.regs.shiftOut = true) :
    Reaction chip e .fall none (sendFall e) := by
  unfold sendFall
  dsimp only
  by_cases hbit : e.regs.counter < 8
  · rw [if_pos hbit]
    exact .bitOut hphase hout hbit
  · rw [if_neg hbit]
    by_cases hlast : e.regs.counter = 8
    · rw [if_pos hlast]
      exact .releaseOut hphase hout hlast
    · rw [if_neg hlast]
      exact .fallOut hphase hout (by omega)

/-- The engine follows the rules. -/
theorem reaction_react (chip : Chip) (e : Eeprom) (event : Event) :
    Reaction chip e event (e.regs.access? chip event) (react chip e event) := by
  suffices h : ∃ access, Reaction chip e event access (react chip e event) by
    obtain ⟨access, h⟩ := h
    rw [h.access?_eq]
    exact h
  unfold react
  dsimp only
  cases event with
  | stop => exact ⟨none, .stop⟩
  | quiet => exact ⟨none, .quiet⟩
  | start =>
      cases h : chip.addressing with
      | single => exact ⟨none, .start h⟩
      | device | twoByte => exact ⟨none, .startOther (by simp [h])⟩
  | rise =>
      by_cases hphase : e.regs.phase = .standby
      · simp only [if_pos hphase]
        exact ⟨none, .riseStandby hphase⟩
      · cases hdir : e.regs.shiftOut with
        | false => simpa [hphase, hdir] using reaction_riseIn hphase hdir
        | true => simpa [hphase, hdir] using reaction_riseOut hphase hdir
  | fall =>
      by_cases hphase : e.regs.phase = .standby
      · simp only [if_pos hphase]
        exact ⟨none, .fallStandby hphase⟩
      · cases hdir : e.regs.shiftOut with
        | false =>
            simpa [hphase, hdir] using ⟨none, Reaction.fallIn hphase hdir⟩
        | true =>
            simpa [hphase, hdir] using ⟨none, reaction_fallOut hphase hdir⟩

/-- The rules say all that the engine does. -/
theorem Reaction.eq_react (h : Reaction chip e event access e') :
    react chip e event = e' := by
  cases h with
  | stop => rfl
  | quiet => rfl
  | start hsingle => simp only [react, hsingle]
  | startOther hother =>
      cases h : chip.addressing with
      | single => exact absurd h hother
      | device | twoByte => simp only [react, h]
  | riseStandby hphase => simp only [react, hphase, if_true]
  | fallStandby hphase => simp only [react, hphase, if_true]
  | bitIn hphase hin hcounter =>
      simp [react, receiveRise, hphase, hin, hcounter]
  | addressRead hphase hin hcounter hread =>
      simp [react, receiveRise, completeByte, stored, hphase, hin,
        Nat.not_lt.2 hcounter, hread]
  | addressWrite hphase hin hcounter hwrite =>
      simp [react, receiveRise, completeByte, hphase, hin,
        Nat.not_lt.2 hcounter, hwrite]
  | byteIn hphase hin hcounter =>
      simp [react, receiveRise, completeByte, hphase, hin,
        Nat.not_lt.2 hcounter]
  -- a byte in a phase that expects none: the part stands by
  | strayIn hphase haddress hdata hin hcounter =>
      have hwhole := Nat.not_lt.2 hcounter
      cases h : e.regs.phase with
      | standby => exact absurd h hphase
      | wordAddress => exact absurd h haddress
      | writeData => exact absurd h hdata
      | deviceAddress | wordAddressHigh | readData =>
          simp [react, receiveRise, completeByte, Registers.stand,
            Registers.resetShift, h, hin, hwhole]
  | fallIn hphase hin => simp [react, receiveFall, hphase, hin]
  | nextOut hphase hout hcounter hlow =>
      simp [react, sendRise, hphase, hout, hcounter, hlow]
  | strayOut hphase hread hout hcounter hlow =>
      cases h : e.regs.phase with
      | standby => exact absurd h hphase
      | readData => exact absurd h hread
      | wordAddress | deviceAddress | wordAddressHigh | writeData =>
          simp [react, sendRise, h, hout, hcounter, hlow]
  | riseOut hphase hout hheld => simp [react, sendRise, hphase, hout, hheld]
  | bitOut hphase hout hcounter =>
      simp [react, sendFall, hphase, hout, hcounter]
  | releaseOut hphase hout hcounter =>
      simp [react, sendFall, hphase, hout, hcounter]
  | fallOut hphase hout hcounter =>
      have hbit : ¬e.regs.counter < 8 := by omega
      have hlast : ¬e.regs.counter = 8 := by omega
      simp [react, sendFall, hphase, hout, hbit, hlast]

-- =========================================================== what it keeps

/-- The storage changes by the access and by nothing else. -/
theorem Reaction.storage_eq (h : Reaction chip e event access e') :
    e'.storage = Access.commit e.storage access := by
  cases h with
  | _ => rfl

/-- No reaction changes the selected part. -/
theorem Reaction.mapper_eq (h : Reaction chip e event access e') :
    e'.mapper = e.mapper := by
  cases h with
  | _ => rfl

/-- The engine does not touch the lines of the processor. -/
theorem Reaction.lines_eq (h : Reaction chip e event access e') :
    e'.regs.scl = e.regs.scl ∧ e'.regs.sdaIn = e.regs.sdaIn := by
  cases h with
  | _ => exact ⟨rfl, rfl⟩

/-- The engine looks at no byte of the storage but the one that it loads. -/
theorem Reaction.withStorage (h : Reaction chip e event access e')
    {s : Array UInt8} (hload : ∀ a, access = some (.load a) → stored { e with
      storage := s } a = e.stored a) :
    Reaction chip { e with storage := s } event access
      { e' with storage := Access.commit s access } := by
  -- the two rules that load find the same byte by `hload`; the others do not
  -- look
  cases h with
  | addressRead hphase hin hcounter hread =>
      rw [← hload _ rfl]
      exact .addressRead hphase hin hcounter hread
  | nextOut hphase hout hcounter hlow =>
      rw [← hload _ rfl]
      exact .nextOut hphase hout hcounter hlow
  | stop => exact .stop
  | start hsingle => exact .start hsingle
  | startOther hother => exact .startOther hother
  | quiet => exact .quiet
  | riseStandby hphase => exact .riseStandby hphase
  | fallStandby hphase => exact .fallStandby hphase
  | bitIn hphase hin hcounter => exact .bitIn hphase hin hcounter
  | addressWrite hphase hin hcounter hwrite =>
      exact .addressWrite hphase hin hcounter hwrite
  | byteIn hphase hin hcounter => exact .byteIn hphase hin hcounter
  | strayIn hphase haddress hdata hin hcounter =>
      exact .strayIn hphase haddress hdata hin hcounter
  | fallIn hphase hin => exact .fallIn hphase hin
  | strayOut hphase hread hout hcounter hlow =>
      exact .strayOut hphase hread hout hcounter hlow
  | riseOut hphase hout hheld => exact .riseOut hphase hout hheld
  | bitOut hphase hout hcounter => exact .bitOut hphase hout hcounter
  | releaseOut hphase hout hcounter => exact .releaseOut hphase hout hcounter
  | fallOut hphase hout hcounter => exact .fallOut hphase hout hcounter

/-- A commit leaves the size of the storage. -/
theorem size_commit (storage : Array UInt8) (access : Option Access) :
    (Access.commit storage access).size = storage.size := by
  unfold Access.commit
  split
  · exact Array.size_setIfInBounds
  · rfl

end

end ConsoleBoard.Eeprom
