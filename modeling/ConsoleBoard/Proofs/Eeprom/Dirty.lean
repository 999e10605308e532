/-
What the dirty flag tells a host that saves the storage.

The flag is one of the registers, so it is part of every snapshot, and the
storage is not: to load a snapshot brings back the flag of the moment at
which it was taken, over a storage that has moved on. Beside the part a
session keeps count of the bytes that have been stored, and of how many
there were at each snapshot. The flag and the count agree (`Honest`) until a
snapshot from before the first byte is loaded behind it.

# The account

`SaveCall` lists what the host does behind a clean mark: writes, snapshots and
their return, and changes of the part. `Honest` compares the flag with the
number of bytes stored since, now and at each snapshot. A write sets
the flag exactly when it stores (`Written.dirty_eq`), so only a return can part
the two, and `restore_forgets` shows one that does.
-/
import ConsoleBoard.Proofs.Eeprom.Host
import ConsoleBoard.Proofs.Eeprom.Master

namespace ConsoleBoard.Eeprom

-- ============================================================ the sessions

/-- What a host does between two saves. -/
inductive SaveCall
  | write (w : LineWrite)
  | snapshot
  /-- Load one of the snapshots, counted from the first. -/
  | restore (k : Nat)
  | select (index : Nat)
  | selectMapper (m : Mapper)

/-- A part, and the books beside it. -/
structure Session where
  chip : Eeprom
  /-- The snapshots, each with the number of bytes stored before it. -/
  taken : List (Registers × Nat)
  /-- Bytes stored by traffic on the lines. -/
  stored : Nat

namespace Session

/-- No snapshot has been taken, and nothing stored. -/
def start (e : Eeprom) : Session := ⟨e, [], 0⟩

/-- Make a call and enter it in the books. A snapshot that there is not and
a board that is refused change nothing. -/
def call (s : Session) : SaveCall → Session
  | .write w =>
    { s with
      chip := s.chip.write w
      stored := s.stored + if (s.chip.access? w).any Access.isStore
        then 1 else 0 }
  | .snapshot => { s with taken := s.taken ++ [(s.chip.regs, s.stored)] }
  | .restore k =>
    match s.taken[k]? with
    | some (r, _) => { s with chip := s.chip.restore r }
    | none => s
  | .select index => { s with chip := s.chip.call (.select (some index)) }
  | .selectMapper m => { s with chip := s.chip.call (.selectMapper m) }

def calls (s : Session) (list : List SaveCall) : Session := list.foldl call s

/-- No snapshot from before the first stored byte is loaded behind it. -/
def Current (s : Session) : SaveCall → Prop
  | .restore k => ∀ entry ∈ s.taken[k]?, 0 < s.stored → 0 < entry.2
  | _ => True

instance (s : Session) : (c : SaveCall) → Decidable (s.Current c)
  | .restore k => inferInstanceAs
      (Decidable (∀ entry ∈ s.taken[k]?, 0 < s.stored → 0 < entry.2))
  | .write _ | .snapshot | .select _ | .selectMapper _ => .isTrue trivial

/-- Every call of a session is current when it is made. -/
def AllCurrent (s : Session) : List SaveCall → Prop
  | [] => True
  | c :: rest => s.Current c ∧ AllCurrent (s.call c) rest

instance AllCurrent.decidable (s : Session) :
    (list : List SaveCall) → Decidable (s.AllCurrent list)
  | [] => .isTrue trivial
  | c :: rest =>
    have : Decidable ((s.call c).AllCurrent rest) :=
      AllCurrent.decidable (s.call c) rest
    inferInstanceAs (Decidable (s.Current c ∧ (s.call c).AllCurrent rest))

end Session

-- ================================================================ the flag

/-- A rule sets the flag where it stores a byte, and never clears it. -/
theorem Reaction.dirty_eq {chip : Chip} {e e' : Eeprom} {event : Event}
    {access : Option Access} (h : Reaction chip e event access e') :
    e'.regs.dirty = (e.regs.dirty || access.any Access.isStore) := by
  cases h with
  | byteIn hphase hin hcounter => exact (Bool.or_true _).symm
  | _ => exact (Bool.or_false _).symm

/-- A write marks the storage when it stores. -/
theorem Written.dirty_eq {e e' : Eeprom} {w : LineWrite}
    {access : Option Access} (h : Written e w access e') :
    e'.regs.dirty = (e.regs.dirty || access.any Access.isStore) := by
  cases h with
  | missed hquiet => exact (Bool.or_false _).symm
  | unheard scl sdaIn hmask => exact (Bool.or_false _).symm
  | reacted scl sdaIn hm hmask hevent hrule => exact hrule.dirty_eq

namespace Session

/-- The flag of the part and of every snapshot says whether there have been
bytes stored before. -/
structure Honest (s : Session) : Prop where
  chip : s.chip.regs.dirty = true ↔ 0 < s.stored
  taken : ∀ r n, (r, n) ∈ s.taken → (r.dirty = true ↔ 0 < n) ∧ n ≤ s.stored

variable {s : Session}

theorem Honest.write (h : s.Honest) (w : LineWrite) :
    (s.call (.write w)).Honest := by
  have hdirty := (written_write s.chip w).dirty_eq
  -- a byte stored raises the count, of which older snapshots keep the smaller
  -- value
  cases hstore : (s.chip.access? w).any Access.isStore with
  | false =>
      have hcall : s.call (.write w) = { s with chip := s.chip.write w } := by
        simp only [call, hstore, Bool.false_eq_true, if_false, Nat.add_zero]
      rw [hstore, Bool.or_false] at hdirty
      rw [hcall]
      constructor
      · rw [hdirty]
        exact h.chip
      · exact h.taken
  | true =>
      have hcall : s.call (.write w)
          = { s with chip := s.chip.write w, stored := s.stored + 1 } := by
        simp only [call, hstore, if_true]
      rw [hstore, Bool.or_true] at hdirty
      rw [hcall]
      constructor
      · rw [hdirty]
        exact iff_of_true rfl (Nat.succ_pos _)
      · intro r n hr
        obtain ⟨hflag, hle⟩ := h.taken r n hr
        exact ⟨hflag, Nat.le_succ_of_le hle⟩

theorem Honest.snapshot (h : s.Honest) : (s.call .snapshot).Honest := by
  refine ⟨h.chip, fun r n hr => ?_⟩
  rcases List.mem_append.1 hr with hr | hr
  · exact h.taken r n hr
  · obtain ⟨rfl, rfl⟩ := Prod.mk.inj (List.mem_singleton.1 hr)
    exact ⟨h.chip, Nat.le_refl _⟩

/-- A snapshot of the present storage keeps the mark honest. -/
theorem Honest.restore (h : s.Honest) {k : Nat}
    (hcurrent : s.Current (.restore k)) :
    (s.call (.restore k)).Honest := by
  cases hr : s.taken[k]? with
  | none =>
      have hsame : s.call (.restore k) = s := by simp only [call, hr]
      rw [hsame]
      exact h
  | some entry =>
      obtain ⟨r, n⟩ := entry
      have hloaded : s.call (.restore k) = { s with
          chip := s.chip.restore r } := by
        simp only [call, hr]
      obtain ⟨hflag, hle⟩ := h.taken r n (List.mem_of_getElem? hr)
      rw [hloaded]
      -- without `hcurrent` the loaded flag may be older than the first byte
      refine ⟨hflag.trans ⟨fun hn => ?_, hcurrent (r, n) hr⟩, h.taken⟩
      exact Nat.lt_of_lt_of_le hn hle

/-- A selection does not touch the registers. -/
theorem Honest.select (h : s.Honest) {c : Call} (hc : c.Selects) :
    Honest { s with chip := s.chip.call c } := by
  refine ⟨?_, h.taken⟩
  rw [((called_call s.chip c).eq_of_selects hc).1]
  exact h.chip

/-- A call keeps the mark honest. -/
theorem Honest.call (h : s.Honest) {c : SaveCall} (hcurrent : s.Current c) :
    (s.call c).Honest := by
  cases c with
  | write w => exact h.write w
  | snapshot => exact h.snapshot
  | restore k => exact h.restore hcurrent
  | select index => exact h.select trivial
  | selectMapper m => exact h.select trivial

/-- Calls keep the mark honest. -/
theorem Honest.calls (h : s.Honest) {list : List SaveCall}
    (hlist : s.AllCurrent list) :
    (s.calls list).Honest := by
  induction list generalizing s with
  | nil => exact h
  | cons c rest ih => exact ih (h.call hlist.1) hlist.2

/-- From a part that is not dirty on, the flag is set exactly when a byte has
been stored, as long as no snapshot from before the first one is loaded
behind it. -/
theorem dirty_iff_stored (e : Eeprom) (hclean : e.regs.dirty = false)
    (list : List SaveCall) (hlist : (start e).AllCurrent list) :
    let s := (start e).calls list
    s.chip.regs.dirty = true ↔ 0 < s.stored := by
  have hstart : (start e).Honest := by
    refine ⟨?_, fun r n hr => absurd hr List.not_mem_nil⟩
    show e.regs.dirty = true ↔ 0 < 0
    simp [hclean]
  exact (hstart.calls hlist).chip

/-- A snapshot from behind the first stored byte may be loaded. -/
theorem dirty_iff_stored_sega :
    let m := Board.database[0].mapper
    let s := (start blank.clearDirty).calls (.select 0
      :: ([m.put true false] ++ m.bytes [0x80, 0x5A]).map .write
      ++ [.snapshot, .restore 0])
    s.stored = 1 ∧ s.chip.regs.dirty = true := by
  intro m s
  have hstored : s.stored = 1 := by decide +kernel
  have hdirty : s.chip.regs.dirty = true ↔ 0 < s.stored :=
    dirty_iff_stored blank.clearDirty rfl _ (by decide +kernel)
  exact ⟨hstored, hdirty.2 (hstored ▸ Nat.one_pos)⟩

/-- A snapshot from before it takes the flag back. -/
theorem restore_forgets :
    let m := Board.database[0].mapper
    let s := (start blank.clearDirty).calls (.select 0 :: .snapshot
      :: ([m.put true false] ++ m.bytes [0x80, 0x5A]).map .write
        ++ [.restore 0])
    s.stored = 1 ∧ s.chip.regs.dirty = false := by
  decide +kernel

end Session

end ConsoleBoard.Eeprom
