/-
What a write of the lines does to a part.

A write of a byte or a word may reach both lines, one or none. What it puts
on them, with the levels before, makes the event (`event`), and `write_eq`
is the one place where a write is opened. From there on a write is one of
three things (`Written`): it misses the lines, no part looks at them, or it
is a rule of the protocol.

# From bytes to levels

A byte or a word is first turned into what it puts on each of the two lines
(`LineWrite.lines`), which may be nothing. A write that no line sees leaves the
part as it is (`writeLines_eq`); otherwise the levels are driven together, in
one event, and the two consequences that every law needs are separate: which
part is selected (`mapper_write`) and what is stored (`storage_write`).
-/
import ConsoleBoard.Proofs.Eeprom.Reaction

namespace ConsoleBoard.Eeprom

-- ============================================================== the writes

/-- A write of the processor. -/
inductive LineWrite
  | byte (address : UInt32) (v : UInt8)
  | word (address : UInt32) (w : UInt16)
deriving DecidableEq

/-- The levels of the clock and of the data line in a write, where it has
them. -/
def LineWrite.lines (m : Mapper) : LineWrite → Option Bool × Option Bool
  | byte address v => (m.scl.inByte? address v, m.sdaIn.inByte? address v)
  | word address w => (m.scl.inWord? address w, m.sdaIn.inWord? address w)

def write (e : Eeprom) : LineWrite → Eeprom
  | .byte address v => e.writeByte address v
  | .word address w => e.writeWord address w

def writes (e : Eeprom) (list : List LineWrite) : Eeprom := list.foldl write e

/-- New levels on the lines, beside those before. -/
def Registers.driven (r : Registers) (scl sdaIn : Bool) : Registers :=
  { r with scl, sdaIn, sdaOutBefore := r.sdaOut }

/-- The registers as the engine sees them at a write, unless it reaches
neither line. A line that it does not reach keeps its level. -/
def Registers.seen? (r : Registers) :
    Option Bool × Option Bool → Option Registers
  | (none, none) => none
  | (scl, sdaIn) =>
      some (r.driven (scl.getD r.sclBefore) (sdaIn.getD r.sdaInBefore))

/-- The selected part with the registers as it sees them at a write. -/
def seen? (e : Eeprom) (w : LineWrite) : Option (Chip × Registers) :=
  e.mapper.bind fun m => (e.regs.seen? (w.lines m)).map fun r => (m.chip, r)

/-- What a write means on the lines. -/
def event (e : Eeprom) (w : LineWrite) : Event :=
  match e.seen? w with
  | none => .quiet
  | some (_, r) => r.event

/-- The access of the storage that a write makes. -/
def access? (e : Eeprom) (w : LineWrite) : Option Access :=
  match e.seen? w with
  | none => none
  | some (chip, r) => if chip.sizeMask = 0 then none else r.access? chip r.event

section

variable {e : Eeprom} {m : Mapper}

theorem writeLevels_eq (hm : e.mapper = some m) (scl sdaIn : Bool) :
    e.writeLevels scl sdaIn =
      if m.chip.sizeMask = 0 then
        settle { e with regs := e.regs.driven scl sdaIn }
      else (react m.chip { e with regs := e.regs.driven scl sdaIn }
        (e.regs.driven scl sdaIn).event).settle := by
  unfold writeLevels
  simp only [hm, bne_iff_ne, ne_eq, ite_not]
  rfl

/-- A write that no line sees does nothing. -/
theorem writeLines_eq (hm : e.mapper = some m) (scl sdaIn : Option Bool) :
    e.writeLines scl sdaIn =
      match e.regs.seen? (scl, sdaIn) with
      | none => e
      | some r =>
        if m.chip.sizeMask = 0 then settle { e with regs := r }
        else (react m.chip { e with regs := r } r.event).settle := by
  cases scl with
  | none =>
      cases sdaIn with
      | none => rfl
      | some sdaIn => exact writeLevels_eq hm _ _
  | some scl => exact writeLevels_eq hm _ _

theorem write_eq_writeLines (hm : e.mapper = some m) (w : LineWrite) :
    e.write w = e.writeLines (w.lines m).1 (w.lines m).2 := by
  cases w with
  | byte address v => simp only [write, writeByte, hm, LineWrite.lines]
  | word address w => simp only [write, writeWord, hm, LineWrite.lines]

end

/-- A write that reaches a line puts the levels on it and lets the engine
react, unless the part has no address to speak of. -/
theorem write_eq (e : Eeprom) (w : LineWrite) :
    e.write w =
      match e.seen? w with
      | none => e
      | some (chip, r) =>
        if chip.sizeMask = 0 then settle { e with regs := r }
        else (react chip { e with regs := r } r.event).settle := by
  rcases Option.eq_none_or_eq_some e.mapper with hm | ⟨m, hm⟩
  · have hseen : e.seen? w = none := by
      unfold seen?
      rw [hm]
      rfl
    rw [hseen]
    cases w with
    | byte address v => simp only [write, writeByte, hm]
    | word address w => simp only [write, writeWord, hm]
  · have hseen : e.seen? w = (e.regs.seen? (w.lines m)).map fun r =>
        (m.chip, r) := by
      unfold seen?
      rw [hm]
      rfl
    rw [write_eq_writeLines hm, writeLines_eq hm, hseen]
    cases e.regs.seen? (w.lines m) with
    | none => rfl
    | some r => rfl

/-- What a write comes to: nothing, levels that no part looks at, or a rule
of the protocol. -/
inductive Written (e : Eeprom) (w : LineWrite) : Option Access → Eeprom → Prop
  | missed (hquiet : e.event w = .quiet) : Written e w none e
  | unheard (scl sdaIn : Bool)
      (hmask : ∀ m, e.mapper = some m → m.chip.sizeMask = 0) :
      Written e w none (settle { e with regs := e.regs.driven scl sdaIn })
  | reacted {m : Mapper} {access : Option Access} {e' : Eeprom}
      (scl sdaIn : Bool)
      (hm : e.mapper = some m) (hmask : m.chip.sizeMask ≠ 0)
      (hevent : e.event w = (e.regs.driven scl sdaIn).event)
      (hrule : Reaction m.chip { e with
          regs := e.regs.driven scl sdaIn } (e.event w) access e') :
      Written e w access e'.settle

/-- What is seen is the lines, driven. -/
theorem Registers.seen?_eq {r r' : Registers}
    {lines : Option Bool × Option Bool} (h : r.seen? lines = some r') :
    ∃ scl sdaIn, r' = r.driven scl sdaIn := by
  obtain ⟨scl, sdaIn⟩ := lines
  cases scl with
  | none =>
      cases sdaIn with
      | none => cases h
      | some sdaIn => exact ⟨_, _, (Option.some.inj h).symm⟩
  | some scl => exact ⟨_, _, (Option.some.inj h).symm⟩

/-- What the engine sees at a write is the selected part with levels on its
lines. -/
theorem seen?_eq {e : Eeprom} {w : LineWrite} {chip : Chip} {r : Registers}
    (h : e.seen? w = some (chip, r)) :
    ∃ m scl sdaIn, e.mapper = some m ∧ m.chip = chip
      ∧ e.regs.driven scl sdaIn = r := by
  obtain ⟨m, hm, hr⟩ := Option.bind_eq_some_iff.1 h
  obtain ⟨r', hr', hpair⟩ := Option.map_eq_some_iff.1 hr
  obtain ⟨rfl, rfl⟩ := Prod.mk.inj hpair
  obtain ⟨scl, sdaIn, rfl⟩ := Registers.seen?_eq hr'
  exact ⟨m, scl, sdaIn, hm, rfl, rfl⟩

/-- What a write does is one of the cases of `Written`. -/
theorem written_write (e : Eeprom) (w : LineWrite) :
    Written e w (e.access? w) (e.write w) := by
  rw [write_eq]
  cases hseen : e.seen? w with
  | none =>
      have hnone : e.access? w = none := by
        unfold access?
        rw [hseen]
      rw [hnone]
      refine .missed ?_
      unfold event
      rw [hseen]
  | some seen =>
      obtain ⟨chip, r⟩ := seen
      obtain ⟨m, scl, sdaIn, hm, rfl, rfl⟩ := seen?_eq hseen
      have hevent : e.event w = (e.regs.driven scl sdaIn).event := by
        unfold event
        rw [hseen]
      have haccess : e.access? w = if m.chip.sizeMask = 0 then none
          else (e.regs.driven scl sdaIn).access? m.chip (e.event w) := by
        rw [hevent]
        unfold access?
        rw [hseen]
      dsimp only
      -- without a geometry the lines are taken in, and nothing reacts
      by_cases hmask : m.chip.sizeMask = 0
      · rw [haccess, if_pos hmask, if_pos hmask]
        refine .unheard scl sdaIn fun m' hm' => ?_
        rw [hm] at hm'
        rwa [← Option.some.inj hm']
      · rw [haccess, if_neg hmask, if_neg hmask, ← hevent]
        exact .reacted scl sdaIn hm hmask hevent (reaction_react _ _ _)

section

variable {e e' : Eeprom} {w : LineWrite} {access : Option Access}

theorem Written.mapper_eq (h : Written e w access e') :
    e'.mapper = e.mapper := by
  cases h with
  | missed hquiet => rfl
  | unheard scl sdaIn hmask => rfl
  | reacted scl sdaIn hm hmask hevent hrule => exact hrule.mapper_eq

/-- A law that does not look at the lines is kept by a write if every rule
keeps it. -/
theorem Written.keeps {law : Eeprom → Prop}
    (hdriven : ∀ {e} (scl sdaIn), law e → law { e with
      regs := e.regs.driven scl sdaIn })
    (hsettle : ∀ {e}, law e → law e.settle)
    (hrule : ∀ {m e event access e'}, law e → e.mapper = some m →
      m.chip.sizeMask ≠ 0 →
      Reaction m.chip e event access e' → law e')
    (hwritten : Written e w access e') (h : law e) : law e' := by
  cases hwritten with
  | missed hquiet => exact h
  | unheard scl sdaIn hmask => exact hsettle (hdriven scl sdaIn h)
  | reacted scl sdaIn hm hmask hevent hreact =>
      exact hsettle (hrule (hdriven scl sdaIn h) hm hmask hreact)

theorem Written.storage_eq (h : Written e w access e') :
    e'.storage = Access.commit e.storage access := by
  cases h with
  | missed hquiet => rfl
  | unheard scl sdaIn hmask => rfl
  | reacted scl sdaIn hm hmask hevent hrule => exact hrule.storage_eq

end

theorem mapper_write (e : Eeprom) (w : LineWrite) :
    (e.write w).mapper = e.mapper :=
  (written_write e w).mapper_eq

/-- A write stores what its access says, and nothing else. -/
theorem storage_write (e : Eeprom) (w : LineWrite) :
    (e.write w).storage = Access.commit e.storage (e.access? w) :=
  (written_write e w).storage_eq

/-- A write looks at no byte of the storage but the one that its access
loads. -/
theorem regs_write_withStorage (e : Eeprom) (w : LineWrite) {s : Array UInt8}
    (hload : ∀ a, e.access? w = some (.load a) →
      stored { e with storage := s } a = e.stored a) :
    (write { e with storage := s } w).regs = (e.write w).regs := by
  have hseen : seen? { e with storage := s } w = e.seen? w := rfl
  rw [write_eq, write_eq, hseen]
  cases hseen : e.seen? w with
  | none => rfl
  | some seen =>
      obtain ⟨chip, r⟩ := seen
      dsimp only
      by_cases hmask : chip.sizeMask = 0
      · rw [if_pos hmask, if_pos hmask]
        rfl
      · have haccess : e.access? w = r.access? chip r.event := by
          unfold access?
          rw [hseen]
          exact if_neg hmask
        rw [haccess] at hload
        have hrule :=
          (reaction_react chip { e with regs := r } r.event).withStorage hload
        rw [if_neg hmask, if_neg hmask, hrule.eq_react]
        rfl

end ConsoleBoard.Eeprom
