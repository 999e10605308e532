/-
The bytes that the protocol touches, and the bytes that the host is given.

The host saves the beginning of the storage, as much as the selected part
has. Of the four ways in which the protocol comes by an address three keep
it inside of the part: a step within a page, a step of a read, and a loaded
snapshot. The fourth, the address byte, brings seven bits whatever the part
has; and an address that was inside of one part may be outside of the next
when the part is changed under a write. Apart from these two (`Suits`), no
rule leads out of the part (`Reaction.confined`), and so no run does.

# Where it fails

The two exceptions are not idle: `unsuited_escapes` writes a byte past the end
of a small part through its address byte. So the condition on the calls cannot
be left out; it is stated on the part that is selected and on what is selected
next, and parts of the database meet the first half of it.
-/
import ConsoleBoard.Proofs.Eeprom.Host
import ConsoleBoard.Proofs.Eeprom.Master

namespace ConsoleBoard.Eeprom

-- =========================================================== the condition

/-- The next byte of a write that is under way goes into a part. -/
def Registers.WritesWithin (mask : UInt16) (r : Registers) : Prop :=
  r.phase = .writeData → Within mask r.address

/-- A part to be selected has all seven bits of an address byte, and the
address of a write that is under way. -/
def Suits (e : Eeprom) (c : Call) : Prop :=
  ∀ m ∈ c.selected?, Within m.chip.sizeMask 0x7F
    ∧ e.regs.WritesWithin m.chip.sizeMask

instance (mask : UInt16) (r : Registers) : Decidable (r.WritesWithin mask) :=
  inferInstanceAs (Decidable (r.phase = .writeData → Within mask r.address))

instance (e : Eeprom) (c : Call) : Decidable (Suits e c) :=
  inferInstanceAs (Decidable (∀ m ∈ c.selected?,
    Within m.chip.sizeMask 0x7F ∧ e.regs.WritesWithin m.chip.sizeMask))

-- =========================================================== the invariant

/-- A rule accesses only what a mask covers, and leads to no write outside of
it, as long as the mask covers the part, its pages and an address byte. -/
theorem Reaction.confined {chip : Chip} {e e' : Eeprom} {event : Event}
    {access : Option Access} {mask : UInt16}
    (h : Reaction chip e event access e') (hpart : Within mask chip.sizeMask)
    (hwide : Within mask 0x7F) (hpages : Within mask chip.pageMask)
    (hin : e.regs.WritesWithin mask) :
    (∀ a, access = some a → Within mask a.address)
      ∧ e'.regs.WritesWithin mask := by
  cases h with
  | addressRead hphase hshift hcounter hread =>
      refine ⟨fun a ha => ?_, nofun⟩
      rw [← Option.some.inj ha]
      exact (within_wordAddress _).trans hwide
  | addressWrite hphase hshift hcounter hwrite =>
      exact ⟨nofun, fun _ => (within_wordAddress _).trans hwide⟩
  | byteIn hphase hshift hcounter =>
      refine ⟨fun a ha => ?_, fun _ => hpages.nextInPage (hin hphase)⟩
      rw [← Option.some.inj ha]
      exact hin hphase
  | nextOut hphase hout hcounter hlow =>
      have hnext := (within_and chip.sizeMask (e.regs.address + 1)).trans hpart
      refine ⟨fun a ha => ?_, fun _ => hnext⟩
      rw [← Option.some.inj ha]
      exact hnext
  | stop | start _ | strayIn _ _ _ _ _ | strayOut _ _ _ _ _ =>
      exact ⟨nofun, nofun⟩
  | _ => exact ⟨nofun, hin⟩

/-- The selected part has seven bits of address, and the next byte of a
write is inside of it. -/
structure Confined (e : Eeprom) : Prop extends Sound e where
  wide : ∀ m, e.mapper = some m → Within m.chip.sizeMask 0x7F
  inside : ∀ m, e.mapper = some m → e.regs.WritesWithin m.chip.sizeMask

private theorem confined_blank : Confined blank where
  toSound := sound_blank
  wide := nofun
  inside := nofun

section

variable {e e' : Eeprom}

/-- A write on the lines accesses the selected part alone. -/
theorem Confined.written {w : LineWrite} {access : Option Access}
    (h : Confined e) (hwritten : Written e w access e') :
    (∀ a, access = some a → ∃ m, e.mapper = some m
      ∧ Within m.chip.sizeMask a.address)
      ∧ ∀ m, e'.mapper = some m → e'.regs.WritesWithin m.chip.sizeMask := by
  cases hwritten with
  | missed hquiet => exact ⟨nofun, h.inside⟩
  | unheard scl sdaIn hmask => exact ⟨nofun, h.inside⟩
  | @reacted m _ _ scl sdaIn hm hmask hevent hrule =>
      obtain ⟨haccess, hinside⟩ :=
        hrule.confined UInt16.and_self (h.wide m hm) (h.accepted m hm).pages
          (h.inside m hm)
      refine ⟨fun a ha => ⟨m, hm, haccess a ha⟩, fun m' hm' => ?_⟩
      obtain rfl : m = m' :=
        Option.some.inj (hm.symm.trans (hrule.mapper_eq.symm.trans hm'))
      exact hinside

/-- A call that suits the part keeps it confined. -/
theorem Confined.called {c : Call} (h : Confined e) (hsuits : Suits e c)
    (hcalled : Called e c e') : Confined e' := by
  have hsound := h.toSound.called hcalled
  cases hcalled with
  | refused hselects hnone => exact h
  | @selected _ m hselects hsome haccepted =>
      -- the registers stay, and the part they are read with changes
      obtain ⟨hwide, hinside⟩ := hsuits m hsome
      refine ⟨hsound, fun m' hm' => ?_, fun m' hm' => ?_⟩
      · rw [← Option.some.inj hm']
        exact hwide
      · rw [← Option.some.inj hm']
        exact hinside
  | erased hc => exact ⟨hsound, h.wide, fun _ _ => nofun⟩
  | wrote w =>
      have hm := mapper_write e w
      exact ⟨hsound, hm ▸ h.wide, (h.written (written_write e w)).2⟩
  | restored r =>
      refine ⟨hsound, h.wide, fun m hm _ => ?_⟩
      -- loading cuts the address to the part, whatever the phase
      have hmapper : e.mapper = some m := hm
      show Within m.chip.sizeMask (r.address &&& _)
      simp only [hmapper]
      exact within_and _ _

/-- Every byte that is stored or loaded for sending is one that the host is
given, as long as parts suit when they are selected. No other byte of the
storage is changed by a write, and no other is looked at. -/
theorem access_confined (calls : List Call) (hcalls : Along Suits blank calls)
    (w : LineWrite) :
    let e := blank.run calls
    (∀ a, e.access? w = some a →
        ∃ m, e.mapper = some m ∧ a.address ≤ m.chip.sizeMask
          ∧ a.address.toNat < e.data.size)
      ∧ (e.write w).storage = Access.commit e.storage (e.access? w)
      ∧ ∀ s, (∀ a, e.access? w = some (.load a) →
          stored { e with storage := s } a = e.stored a) →
        (write { e with storage := s } w).regs = (e.write w).regs := by
  intro e
  have hconfined : Confined e :=
    run_keeps (fun h hsuits => h.called hsuits (called_call _ _))
      confined_blank hcalls
  refine ⟨fun a ha => ?_, storage_write e w,
    fun s => regs_write_withStorage e w⟩
  obtain ⟨m, hm, hin⟩ := (hconfined.written (written_write e w)).1 a ha
  refine ⟨m, hm, hin.le, ?_⟩
  rw [hconfined.toSound.size_data hm]
  exact Nat.lt_succ_of_le hin.le

/-- A byte written to the known board with the smallest part. -/
theorem access_confined_sega :
    let m := Board.database[0].mapper
    let e := blank.run (.select (some 0)
      :: ([m.put true false] ++ m.bytes [0x80]
        ++ m.clocks (bits 0x5A)).map .write)
    e.access? (m.put true true) = some (.store 0x40 0x5A)
      ∧ 0x40 < e.data.size := by
  intro m e
  obtain ⟨hconfined, -⟩ := access_confined (.select (some 0)
    :: ([m.put true false] ++ m.bytes [0x80]
      ++ m.clocks (bits 0x5A)).map .write)
    (by decide +kernel) (m.put true true)
  have hstore : e.access? (m.put true true) = some (.store 0x40 0x5A) := by
    decide +kernel
  obtain ⟨-, -, -, hin⟩ := hconfined _ hstore
  exact ⟨hstore, hin⟩

/-- Neither condition can be left out: a part of sixteen bytes takes a byte
at the index 64, and a part of 128 bytes one at the index 128 that a write
to a larger part had reached. -/
theorem unsuited_escapes :
    let wired (chip : Chip) : Mapper :=
      ⟨chip, ⟨0x200001, 1⟩, ⟨0x200001, 0⟩, ⟨0x200001, 0⟩⟩
    let small := wired ⟨"sixteen bytes", 0x0F, 0x07, .single⟩
    let large := wired ⟨"one page", 0xFF, 0xFF, .single⟩
    let put := small.put
    let addressed := blank.run (.selectMapper small
      :: ([put true false] ++ small.bytes [0x80]
        ++ small.clocks (bits 0x5A)).map .write)
    let changed := blank.run (.selectMapper large
      :: ([put true false] ++ small.bytes [0xFE, 0x11]).map .write
      ++ .select (some 0) :: (small.clocks (bits 0x5A)).map .write)
    (addressed.access? (put true true) = some (.store 0x40 0x5A)
      ∧ addressed.data.size = 16)
      ∧ changed.access? (put true true) = some (.store 0x80 0x5A)
      ∧ changed.data.size = 128 := by
  intro wired small large put addressed changed
  have hsmall : addressed.mapper = some small := by decide +kernel
  have hsega : changed.mapper = some Board.database[0].mapper := by
    decide +kernel
  refine ⟨⟨by decide +kernel, ?_⟩, by decide +kernel, ?_⟩
  · exact (sound_run _).size_data hsmall
  · exact (sound_run _).size_data hsega

end

end ConsoleBoard.Eeprom
