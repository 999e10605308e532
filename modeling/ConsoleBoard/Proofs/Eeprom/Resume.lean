/-
A snapshot taken in the middle of a transaction.

A snapshot is the protocol registers, and to load it is not to copy them: the
address is cut to the part and the clock counter to nine. So a transaction goes
on as if nothing had happened only if the cuts cut nothing. Traffic on the lines
of one part sees to that (`InRange`). Every rule finds the next address inside
of the part, provided that the part has the seven bits of an address byte, and
the counter stays at nine at most because such a part looks at the lines, so
that no fall of an answer is hidden from it.

# Loading what was taken

To load a snapshot that is in range is to copy it (`InRange.restore`), so the
part behind it has the registers of the part before. From equal registers and
equal storage the same writes lead to the same place, and no other fact about
the protocol is needed for what follows.
-/
import ConsoleBoard.Proofs.Eeprom.Confinement
import ConsoleBoard.Proofs.Eeprom.Counter
import ConsoleBoard.Proofs.Eeprom.Transaction

namespace ConsoleBoard.Eeprom

section

variable {m : Mapper} {e e' : Eeprom}

-- ============================================================= the address

/-- A rule leads from an address of the part to another one. -/
theorem Reaction.address_within {chip : Chip} {event : Event}
    {access : Option Access} (h : Reaction chip e event access e')
    (hwide : Within chip.sizeMask 0x7F)
    (hpages : Within chip.sizeMask chip.pageMask)
    (hin : Within chip.sizeMask e.regs.address) :
    Within chip.sizeMask e'.regs.address := by
  cases h with
  | addressRead _ _ _ _ | addressWrite _ _ _ _ =>
      exact (within_wordAddress _).trans hwide
  | byteIn _ _ _ => exact hpages.nextInPage hin
  | nextOut _ _ _ _ => exact within_and _ _
  | _ => exact hin

/-- The part is of the kind `m`, and its address lies inside of it. -/
def PointsInto (m : Mapper) (e : Eeprom) : Prop :=
  e.mapper = some m ∧ Within m.chip.sizeMask e.regs.address

/-- A write keeps the address inside the part. -/
theorem PointsInto.written {w : LineWrite} {access : Option Access}
    (haccepted : m.chip.Accepted) (hwide : Within m.chip.sizeMask 0x7F)
    (h : PointsInto m e) (hwritten : Written e w access e') :
    PointsInto m e' := by
  refine hwritten.keeps (fun _ _ h => h) (fun h => h) ?_ h
  intro m' e event access e' ⟨hm, hin⟩ hm' _ hrule
  obtain rfl : m = m' := Option.some.inj (hm.symm.trans hm')
  exact ⟨hrule.mapper_eq.trans hm,
    hrule.address_within hwide haccepted.pages hin⟩

-- =========================================================== the invariant

/-- Nothing that a snapshot of the part holds is cut when it is loaded, and no
write on the lines changes that. -/
structure InRange (m : Mapper) (e : Eeprom) : Prop where
  mapper : e.mapper = some m
  address : Within m.chip.sizeMask e.regs.address
  counter : e.regs.counter ≤ 9
  seen : ¬e.regs.Overdue

theorem InRange.reset (hm : e.mapper = some m) : InRange m e.reset where
  mapper := hm
  address := by
    unfold Within
    exact UInt16.zero_and
  counter := Nat.zero_le 9
  seen := fun h => nomatch h.1.1

theorem InRange.write (haccepted : m.chip.Accepted)
    (hwide : Within m.chip.sizeMask 0x7F) (h : InRange m e) (w : LineWrite) :
    InRange m (e.write w) := by
  have hset : e.isTypeSet = true := by
    rw [isTypeSet_iff h.mapper]
    intro hzero
    rw [hzero] at hwide
    exact absurd hwide (by decide)
  have hwritten := written_write e w
  refine ⟨(mapper_write e w).trans h.mapper, ?_, ?_, ?_⟩
  · have hpoints : PointsInto m e := ⟨h.mapper, h.address⟩
    exact (hpoints.written haccepted hwide hwritten).2
  · exact (hwritten.counter_le_iff h.counter).2 fun _ _ => h.seen
  · exact not_overdue_write h.seen fun _ _ => hset

theorem InRange.writes (haccepted : m.chip.Accepted)
    (hwide : Within m.chip.sizeMask 0x7F) (h : InRange m e)
    (list : List LineWrite) : InRange m (e.writes list) := by
  induction list generalizing e with
  | nil => exact h
  | cons w rest ih => exact ih (h.write haccepted hwide w)

/-- Loaded into a part of the same kind with the same storage, the registers
make it the same part. -/
theorem InRange.restore (h : InRange m e) {other : Eeprom}
    (hmapper : other.mapper = e.mapper) (hstorage : other.storage = e.storage) :
    other.restore e.regs = e := by
  have haddress : e.regs.address &&& m.chip.sizeMask
      = e.regs.address := h.address
  have hcounter : min e.regs.counter 9 = e.regs.counter :=
    Nat.min_eq_left h.counter
  unfold Eeprom.restore
  simp only [hmapper, h.mapper, haddress, hcounter]
  rw [hstorage, ← h.mapper]

-- ============================================================= the theorem

/-- Take a snapshot behind any writes on the lines, at whatever edge of a
transaction that is, and load it into any other part of the same kind with the
same storage: that part is then the first one, register by register. So whatever
is written from there on, both show the same on the data line and at every port,
and hold the same; loaded where it was taken, the snapshot changes nothing. -/
theorem restore_resumes (hselectable : m.Selectable) {k : Nat} (hk : 7 ≤ k)
    (hmask : m.chip.sizeMask.toNat = 2 ^ k - 1) {start : Eeprom}
    (hm : start.mapper = some m) (before : List LineWrite) :
    let e := start.reset.writes before
    e.restore e.regs = e
      ∧ ∀ other : Eeprom, other.mapper = e.mapper → other.storage = e.storage →
          other.restore e.regs = e
          ∧ ∀ later,
              let a := (other.restore e.regs).writes later
              let b := e.writes later
              a.regs.sda = b.regs.sda ∧ a.storage = b.storage
                ∧ a.regs.address = b.regs.address ∧ a.regs.phase = b.regs.phase
                ∧ a.regs.dirty = b.regs.dirty
                ∧ ∀ address, a.readByte address = b.readByte address
                    ∧ a.readWord address = b.readWord address := by
  intro e
  -- the snapshot is masked on loading, which is no change to registers that are
  -- in range already
  have hwide : Within m.chip.sizeMask 0x7F :=
    within_sevenBits hk hmask (by decide)
  have hrange : InRange m e :=
    (InRange.reset hm).writes hselectable.accepted hwide before
  refine ⟨hrange.restore rfl rfl, ?_⟩
  intro other hmapper hstorage
  have hsame := hrange.restore hmapper hstorage
  refine ⟨hsame, ?_⟩
  intro later
  rw [hsame]
  exact ⟨rfl, rfl, rfl, rfl, rfl, fun _ => ⟨rfl, rfl⟩⟩

/-- A snapshot in the ninth clock of a byte that is written, loaded into a part
that is sending: the counter is at nine, and the fall behind it is still
heard. -/
theorem restore_resumes_ninthClock :
    let m := Board.database[0].mapper
    let start : Eeprom := ⟨some m, erased, {}⟩
    let before := [m.put true false] ++ m.bytes [0x80] ++ m.clocks (bits 0x5A)
      ++ [m.put true true]
    let e := start.reset.writes before
    let other : Eeprom :=
      { e with regs :=
        { phase := .readData, shiftOut := true, counter := 3,
          sdaOut := false } }
    let later := [m.put false true] ++ m.bytes [0xC3]
    e.regs.counter = 9 ∧ e.regs.phase = .writeData
      ∧ ((other.restore e.regs).writes later).storage = (e.writes later).storage
      ∧ (e.writes later).stored 0x41 = 0xC3 := by
  intro m start before e other later
  have hselectable : m.Selectable := .inr ⟨Board.database[0], by decide, rfl⟩
  have hm : start.mapper = some m := rfl
  obtain ⟨-, hresumes⟩ :=
    restore_resumes hselectable (k := 7) (by decide) rfl hm before
  obtain ⟨-, hlater⟩ := hresumes other rfl rfl
  obtain ⟨-, hstorage, -⟩ := hlater later
  exact ⟨by decide +kernel, by decide +kernel, hstorage, by decide +kernel⟩

end

end ConsoleBoard.Eeprom
