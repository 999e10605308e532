/-
Parts whose word address does not come in one byte.

Such a part is to stand aside: a start condition wakes it from nothing, and
from standby no rule leads out but a start condition that it does not heed
(`Reaction.aside`). But nothing takes it into standby either, except for a stop
condition and a reset. The phase is a register, so it outlives a change of the
part and comes with every snapshot, and a start condition leaves it as it is
(`Written.phase_start`): a part selected in the middle of a transaction takes
over the transaction. The law holds as long as parts are changed, and
snapshots loaded for them, between transactions (`Idle`).

# Where it fails

The rule that would take the part to standby is not there, and so
`midTransaction_takesOver` selects one in the middle of a transaction of
another part: the start condition that follows leaves it where it was. The
condition of the law is on the moments at which parts are changed, and on
nothing that happens on the lines.
-/
import ConsoleBoard.Proofs.Eeprom.Host
import ConsoleBoard.Proofs.Eeprom.Master

namespace ConsoleBoard.Eeprom

-- =========================================================== the condition

/-- The part takes more bytes of address than the protocol has. -/
def Chip.MultiByte (chip : Chip) : Prop := chip.addressing ≠ .single

instance (chip : Chip) : Decidable chip.MultiByte :=
  inferInstanceAs (Decidable (chip.addressing ≠ .single))

/-- A call that selects no part with single-byte addressing, and loads no
snapshot. -/
def Call.StaysMultiByte : Call → Prop
  | restore _ => False
  | c => ∀ m ∈ c.selected?, m.chip.MultiByte

/-- A part with multi-byte addressing is selected between transactions, and so
are the snapshots that are loaded for it. -/
def Idle (e : Eeprom) : Call → Prop
  | .restore r => ∀ m ∈ e.mapper, m.chip.MultiByte → r.phase = .standby
  | c => ∀ m ∈ c.selected?, m.chip.MultiByte → e.regs.phase = .standby

instance : (c : Call) → Decidable c.StaysMultiByte
  | .restore _ => .isFalse id
  | .select index =>
    inferInstanceAs
      (Decidable (∀ m ∈ (Call.select index).selected?, m.chip.MultiByte))
  | .selectMapper board =>
    inferInstanceAs
      (Decidable (∀ m ∈ (Call.selectMapper board).selected?, m.chip.MultiByte))
  | .write _ | .reset => .isTrue nofun

instance (e : Eeprom) : (c : Call) → Decidable (Idle e c)
  | .restore r =>
    inferInstanceAs
      (Decidable (∀ m ∈ e.mapper, m.chip.MultiByte → r.phase = .standby))
  | .select index =>
    inferInstanceAs (Decidable (∀ m ∈ (Call.select index).selected?,
      m.chip.MultiByte → e.regs.phase = .standby))
  | .selectMapper board =>
    inferInstanceAs (Decidable (∀ m ∈ (Call.selectMapper board).selected?,
      m.chip.MultiByte → e.regs.phase = .standby))
  | .write _ | .reset => .isTrue nofun

section

variable {e e' : Eeprom}

-- ========================================================== standing aside

/-- What traffic on the lines leaves alone. -/
structure Untouched (e e' : Eeprom) : Prop where
  phase : e'.regs.phase = e.regs.phase
  storage : e'.storage = e.storage
  address : e'.regs.address = e.regs.address
  dirty : e'.regs.dirty = e.regs.dirty
  /-- The data line is not pulled low. -/
  released : e.regs.sdaOut = true → e'.regs.sdaOut = true

theorem Untouched.refl (e : Eeprom) : Untouched e e := ⟨rfl, rfl, rfl, rfl, id⟩

/-- From standby a part with multi-byte addressing is woken by no event. -/
theorem Reaction.aside {chip : Chip} {event : Event} {access : Option Access}
    (h : Reaction chip e event access e') (hmulti : chip.MultiByte)
    (hphase : e.regs.phase = .standby) : Untouched e e' := by
  cases h with
  | stop => exact ⟨hphase.symm, rfl, rfl, rfl, fun _ => rfl⟩
  | startOther hother => exact ⟨rfl, rfl, rfl, rfl, fun _ => rfl⟩
  | quiet | riseStandby _ | fallStandby _ => exact .refl e
  | start hsingle => exact absurd hsingle hmulti
  | bitIn hother _ _ | strayIn hother _ _ _ _ | fallIn hother _
  | strayOut hother _ _ _ _ | riseOut hother _ _ | bitOut hother _ _
  | releaseOut hother _ _ | fallOut hother _ _ =>
      exact absurd hphase hother
  | addressRead hother _ _ _ | addressWrite hother _ _ _ | byteIn hother _ _
  | nextOut hother _ _ _ => cases hphase.symm.trans hother

/-- No part with single-byte addressing is selected, and no transaction is
under way. -/
structure Aside (e : Eeprom) : Prop where
  multiByte : ∀ m, e.mapper = some m → m.chip.MultiByte
  phase : e.regs.phase = .standby

/-- A write touches nothing of a part that stands aside. -/
theorem Aside.written {w : LineWrite} {access : Option Access} (h : Aside e)
    (hwritten : Written e w access e') : Untouched e e' := by
  cases hwritten with
  | missed hquiet => exact .refl e
  | unheard scl sdaIn hmask => exact ⟨rfl, rfl, rfl, rfl, id⟩
  | reacted scl sdaIn hm hmask hevent hrule =>
      have hkept := hrule.aside (h.multiByte _ hm) h.phase
      exact ⟨hkept.phase, hkept.storage, hkept.address, hkept.dirty,
        hkept.released⟩

/-- A write leaves the part aside. -/
theorem Aside.write (h : Aside e) (w : LineWrite) : Aside (e.write w) := by
  have hkept := h.written (written_write e w)
  exact ⟨mapper_write e w ▸ h.multiByte, hkept.phase.trans h.phase⟩

/-- What such a call selects has multi-byte addressing. -/
theorem Call.StaysMultiByte.selected {c : Call} (h : c.StaysMultiByte) :
    ∀ m ∈ c.selected?, m.chip.MultiByte := by
  cases c with
  | restore r => cases h
  | _ => exact h

/-- A call leaves the part aside, and does not pull the line. -/
theorem Aside.called {c : Call} (h : Aside e) (hc : c.StaysMultiByte)
    (hcalled : Called e c e') :
    Aside e' ∧ (e.regs.sdaOut = true → e'.regs.sdaOut = true) := by
  cases hcalled with
  | refused hselects hnone => exact ⟨h, id⟩
  | selected hselects hsome haccepted =>
      refine ⟨⟨fun m hm => ?_, h.phase⟩, id⟩
      exact hc.selected m (hsome.trans hm)
  | erased hreset => exact ⟨⟨h.multiByte, rfl⟩, fun _ => rfl⟩
  | wrote w => exact ⟨h.write w, (h.written (written_write e w)).released⟩
  | restored r => cases hc

/-- A run leaves the part aside, and does not pull the line. -/
theorem Aside.run {calls : List Call} (h : Aside e)
    (hcalls : ∀ c ∈ calls, c.StaysMultiByte) :
    Aside (e.run calls)
      ∧ (e.regs.sdaOut = true → (e.run calls).regs.sdaOut = true) := by
  induction calls generalizing e with
  | nil => exact ⟨h, id⟩
  | cons c rest ih =>
      obtain ⟨haside, hreleased⟩ :=
        h.called (hcalls c List.mem_cons_self) (called_call e c)
      obtain ⟨hend, hkept⟩ :=
        ih haside fun c hc => hcalls c (List.mem_cons_of_mem _ hc)
      exact ⟨hend, fun hhigh => hkept (hreleased hhigh)⟩

-- ======================================================= a start condition

/-- A start condition lets the line go, and leaves the phase as it was. -/
theorem Written.phase_start {w : LineWrite} {access : Option Access}
    {m : Mapper} (h : Written e w access e') (hstart : e.event w = .start)
    (hm : e.mapper = some m) (hmulti : m.chip.MultiByte) :
    e'.regs.phase = e.regs.phase
      ∧ (m.chip.sizeMask ≠ 0 → e'.regs.sdaOut = true) := by
  cases h with
  | missed hquiet => cases hquiet.symm.trans hstart
  | unheard scl sdaIn hmask => exact ⟨rfl, fun hset => absurd (hmask m hm) hset⟩
  | reacted scl sdaIn hm' hmask hevent hrule =>
      obtain rfl := Option.some.inj (hm.symm.trans hm')
      rw [hstart] at hrule
      cases hrule with
      | start hsingle => exact absurd hsingle hmulti
      | startOther hother => exact ⟨rfl, fun _ => rfl⟩

-- =============================================================== every run

/-- A part with multi-byte addressing is in standby. -/
def Rested (e : Eeprom) : Prop :=
  ∀ m ∈ e.mapper, m.chip.MultiByte → e.regs.phase = .standby

/-- What an idle call selects finds the part in standby. -/
theorem Idle.selected {c : Call} (h : Idle e c) :
    ∀ m ∈ c.selected?, m.chip.MultiByte → e.regs.phase = .standby := by
  cases c with
  | restore r => nofun
  | _ => exact h

theorem Rested.called {c : Call} (h : Rested e) (hc : Idle e c)
    (hcalled : Called e c e') :
    Rested e' := by
  cases hcalled with
  | refused hselects hnone => exact h
  | selected hselects hsome haccepted =>
      exact fun m hm => hc.selected m (hsome.trans hm)
  | erased hreset => exact fun _ _ _ => rfl
  | wrote w =>
      intro m hm hmulti
      have hm' : e.mapper = some m := (mapper_write e w).symm.trans hm
      have haside : Aside e := by
        refine ⟨fun m' hm'' => ?_, h m hm' hmulti⟩
        rwa [← Option.some.inj (hm'.symm.trans hm'')]
      exact (haside.write w).phase
  | restored r => exact hc

/-- A part with multi-byte addressing is in standby behind a start condition if
and only if it was before, and it always was when parts are changed, and
snapshots loaded for them, between transactions. From then on, until a part with
single-byte addressing is selected or a snapshot is loaded, it stays in standby
whatever is written, and no write stores a byte, moves the address, marks the
storage as written or pulls the data line low. -/
theorem multiByte_stands_aside (calls : List Call) (w : LineWrite) {m : Mapper}
    (hm : (blank.run calls).mapper = some m) (hmulti : m.chip.MultiByte)
    (hstart : (blank.run calls).event w = .start) :
    let e := blank.run calls
    let started := e.write w
    (started.regs.phase = .standby ↔ e.regs.phase = .standby)
      ∧ (Along Idle blank calls → e.regs.phase = .standby)
      ∧ (e.regs.phase = .standby → ∀ later, (∀ c ∈ later, c.StaysMultiByte) →
          let s := started.run later
          s.regs.phase = .standby
            ∧ (m.chip.sizeMask ≠ 0 → s.regs.sdaOut = true)
            ∧ ∀ w', Untouched s (s.write w')) := by
  intro e started
  obtain ⟨hphase, hreleased⟩ := (written_write e w).phase_start hstart hm hmulti
  refine ⟨iff_of_eq (congrArg (· = Phase.standby) hphase), fun hidle => ?_,
    fun hstandby => ?_⟩
  · have hrested : Rested e :=
      run_keeps (fun h hc => h.called hc (called_call _ _)) nofun hidle
    exact hrested m hm hmulti
  · intro later hlater s
    have haside : Aside e := by
      refine ⟨fun m' hm' => ?_, hstandby⟩
      rwa [← Option.some.inj (hm.symm.trans hm')]
    obtain ⟨hend, hkept⟩ := (haside.write w).run hlater
    exact ⟨hend.phase, fun hset => hkept (hreleased hset),
      fun w' => hend.written (written_write s w')⟩

/-- The address byte and a byte of data behind a start condition on a known
board with a larger part. -/
theorem multiByte_stands_aside_24C02 :
    let m := Board.database[1].mapper
    let started := (blank.run [.select (some 1)]).write (m.put true false)
    let s := started.run ((m.bytes [0x80, 0x5A]).map .write)
    m.chip.MultiByte ∧ s.regs.phase = .standby ∧ s.regs.sdaOut = true
      ∧ ∀ w, (s.write w).storage = s.storage := by
  intro m started s
  have hmulti : m.chip.MultiByte := by decide
  have hstart : (blank.run [.select (some 1)]).event (m.put true false)
      = .start := by
    decide +kernel
  obtain ⟨-, hrested, hquiet⟩ :=
    multiByte_stands_aside [.select (some 1)] (m.put true false)
      (m := m) rfl hmulti hstart
  have hlater : ∀ c ∈ (m.bytes [0x80, 0x5A]).map Call.write,
      c.StaysMultiByte := by
    intro c hc
    obtain ⟨w, -, rfl⟩ := List.mem_map.1 hc
    exact nofun
  obtain ⟨hphase, hreleased, huntouched⟩ :=
    hquiet (hrested (by decide)) _ hlater
  exact ⟨hmulti, hphase, hreleased (by decide), fun w => (huntouched w).storage⟩

/-- A part that is selected in the middle of a transaction takes the transaction
over: its start condition leads to no standby, and the byte behind it is stored
and acknowledged. -/
theorem midTransaction_takesOver :
    let m := Board.database[1].mapper
    let e := blank.run (.select (some 0)
      :: ([m.put true false] ++ m.clocks [true]).map .write
      ++ [.select (some 1), .write (m.put true true)])
    let started := e.write (m.put true false)
    let addressed := started.writes (m.bytes [0x80] ++ m.clocks (bits 0x5A))
    let w := m.put true true
    e.mapper = some m ∧ m.chip.MultiByte ∧ e.event (m.put true false) = .start
      ∧ started.regs.phase = .wordAddress
      ∧ addressed.access? w = some (.store 0x40 0x5A)
      ∧ (addressed.write w).regs.sdaOut = false := by
  decide +kernel

end

end ConsoleBoard.Eeprom
