/-
The bytes that the protocol touches, and the bytes that there are.

The storage has room for the largest part, so its last index is a mask too,
and it covers the mask of every accepted part, its pages, and the seven bits
of an address byte. Read with this mask the rules lead nowhere else
(`Reaction.confined`), whatever the part. The address of a write that is
under way may therefore outlive its part: with the next part it may be
outside of what the host is given, but not outside of the storage, and a
loaded snapshot is cut to one of the masks.

# From masks to indices

An address is made of others by masks and steps, so it is bounded by masks
first (`within_storageMask_iff` turns that into a bound on the index).
`Stored` is the invariant, kept by writes (`Stored.written`) and by the host's
other calls (`Stored.called`): registers point into the storage, and the
storage has its size.
-/
import ConsoleBoard.Proofs.Eeprom.Confinement

namespace ConsoleBoard.Eeprom

-- ========================================================== the last index

/-- The last index of the storage. All its bits are set. -/
def storageMask : UInt16 := UInt16.ofNat (storageSize - 1)

/-- The addresses within the storage are those below its size. -/
theorem within_storageMask_iff {a : UInt16} :
    Within storageMask a ↔ a.toNat < storageSize := by
  constructor
  · exact fun h => Nat.lt_of_le_of_lt h.le (by decide)
  · exact fun h => within_of_lt (k := 14) (by decide) h

/-- The storage covers every part that is accepted. -/
theorem Chip.Accepted.within {chip : Chip} (h : chip.Accepted) :
    Within storageMask chip.sizeMask :=
  within_storageMask_iff.2 (Nat.lt_of_lt_of_le (Nat.lt_succ_self _) h.fits)

-- =========================================================== the invariant

/-- The next byte of a write that is under way goes into the storage. -/
structure Stored (e : Eeprom) : Prop extends Sound e where
  inside : e.regs.WritesWithin storageMask

theorem stored_blank : Stored blank := ⟨sound_blank, nofun⟩

section

variable {e e' : Eeprom}

/-- A write on the lines accesses the storage and points into it. -/
theorem Stored.written {w : LineWrite} {access : Option Access} (h : Stored e)
    (hwritten : Written e w access e') :
    (∀ a, access = some a → Within storageMask a.address)
      ∧ e'.regs.WritesWithin storageMask := by
  cases hwritten with
  | missed hquiet => exact ⟨nofun, h.inside⟩
  | unheard scl sdaIn hmask => exact ⟨nofun, h.inside⟩
  | @reacted m _ _ scl sdaIn hm hmask hevent hrule =>
      have haccepted := h.accepted m hm
      exact hrule.confined haccepted.within (by decide)
        (haccepted.pages.trans haccepted.within) h.inside

/-- A call keeps the part within its storage. -/
theorem Stored.called {c : Call} (h : Stored e) (hcalled : Called e c e') :
    Stored e' := by
  have hsound := h.toSound.called hcalled
  cases hcalled with
  | refused hselects hnone => exact h
  | selected hselects hsome haccepted => exact ⟨hsound, h.inside⟩
  | erased hc => exact ⟨hsound, nofun⟩
  | wrote w => exact ⟨hsound, (h.written (written_write e w)).2⟩
  | restored r =>
      refine ⟨hsound, fun _ => ?_⟩
      show Within storageMask (r.address &&& _)
      cases hm : e.mapper with
      | none => exact within_and _ _
      | some m => exact (within_and _ _).trans (h.accepted m hm).within

/-- Every run keeps the part within its storage. -/
theorem stored_run (calls : List Call) : Stored (blank.run calls) :=
  run_always (fun h => h.called (called_call _ _)) stored_blank calls

/-- Whatever parts are selected and refused, in whatever phase they are changed
and whatever snapshots are loaded, no access falls outside of the storage. The
accesses are all there are: no other byte is changed by a write, and no other is
looked at. -/
theorem access_lt_storageSize (calls : List Call) (w : LineWrite) :
    let e := blank.run calls
    (∀ a, e.access? w = some a →
        a.address.toNat < storageSize ∧ a.address.toNat < e.storage.size)
      ∧ (e.write w).storage = Access.commit e.storage (e.access? w)
      ∧ ∀ s, (∀ a, e.access? w = some (.load a) →
          stored { e with storage := s } a = e.stored a) →
        (write { e with storage := s } w).regs = (e.write w).regs := by
  intro e
  have hstored : Stored e := stored_run calls
  refine ⟨fun a ha => ?_, storage_write e w,
    fun s => regs_write_withStorage e w⟩
  have hlt := within_storageMask_iff.1
    ((hstored.written (written_write e w)).1 a ha)
  exact ⟨hlt, hstored.size.symm ▸ hlt⟩

end

end ConsoleBoard.Eeprom
