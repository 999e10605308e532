/-
The addresses of a part, and the parts that can be selected.

A part has the addresses that its size mask covers (`Within`), and every way
in which the protocol makes an address out of others is a lemma here: a
mask, a step within a page, the seven bits of an address byte. A part is
accepted when it fits the storage and its pages stay inside of it, and the
known boards are accepted like any other (`Selectable.accepted`).

# Acceptance

Selecting a mapper asks for two things (`selectMapper_eq_ok`), and selecting a
board of the database asks only that it is there, since all of its boards pass
(`database_accepted`). Both ways lead to an accepted part, so what is said of a
selected part starts from `Chip.Accepted` and from nothing else.
-/
import ConsoleBoard.Eeprom.Basic
import Mathlib.Data.Nat.Bitwise

namespace ConsoleBoard.Eeprom

-- =========================================================== the addresses

/-- An address has no bit that a mask does not have. -/
def Within (mask a : UInt16) : Prop := a &&& mask = a

instance (mask a : UInt16) : Decidable (Within mask a) :=
  inferInstanceAs (Decidable (a &&& mask = a))

section

variable {mask page a : UInt16}

private theorem and_or_distrib (a b c : UInt16) :
    a &&& (b ||| c) = a &&& b ||| a &&& c := by
  apply UInt16.toNat_inj.1
  simp only [UInt16.toNat_and, UInt16.toNat_or]
  exact Nat.and_or_distrib_left _ _ _

/-- The test that a selection makes. -/
theorem within_iff : Within mask a ↔ a &&& ~~~mask = 0 := by
  have hsplit : a &&& mask ||| a &&& ~~~mask = a := by
    rw [← and_or_distrib, UInt16.or_not_self, UInt16.and_neg_one]
  constructor
  · intro h
    rw [← h, UInt16.and_assoc, UInt16.and_not_self, UInt16.and_zero]
  · intro h
    rwa [h, UInt16.or_zero] at hsplit

/-- A masked address is within its mask. -/
theorem within_and (mask a : UInt16) : Within mask (a &&& mask) := by
  unfold Within
  rw [UInt16.and_assoc, UInt16.and_self]

/-- A mask bounds what is within it. -/
theorem Within.le (h : Within mask a) : a.toNat ≤ mask.toNat := by
  rw [← h, UInt16.toNat_and]
  exact Nat.and_le_right

/-- What is within a mask stays so when bits are taken off. -/
theorem Within.and_right (h : Within mask a) (b : UInt16) :
    Within mask (a &&& b) := by
  unfold Within
  rw [UInt16.and_assoc, UInt16.and_comm b, ← UInt16.and_assoc, h]

/-- A page within the size has its addresses within it. -/
theorem Within.trans (h : Within page a) (h' : Within mask page) :
    Within mask a := by
  unfold Within
  rw [← h, UInt16.and_assoc, h']

theorem Within.or {b : UInt16} (h : Within mask a) (h' : Within mask b) :
    Within mask (a ||| b) := by
  unfold Within
  rw [UInt16.and_comm, and_or_distrib, UInt16.and_comm mask,
    UInt16.and_comm mask, h, h']

/-- A step within a page does not leave the part that the page is in. -/
theorem Within.nextInPage {chip : Chip} (hpage : Within mask chip.pageMask)
    (h : Within mask a) :
    Within mask (nextInPage chip a) :=
  (h.and_right _).or ((within_and _ _).trans hpage)

/-- The lower bits cover every address below their power of two. -/
theorem within_of_lt {k : Nat} (hk : k ≤ 16) (h : a.toNat < 2 ^ k) :
    Within (UInt16.ofNat (2 ^ k - 1)) a := by
  apply UInt16.toNat_inj.1
  have hpow : 2 ^ k ≤ 2 ^ 16 := Nat.pow_le_pow_right (by decide) hk
  have hones : 2 ^ k - 1 < 2 ^ 16 := by omega
  rw [UInt16.toNat_and, UInt16.toNat_ofNat', Nat.mod_eq_of_lt hones]
  exact (Nat.and_two_pow_sub_one_eq_mod _ k).trans (Nat.mod_eq_of_lt h)

/-- An address byte carries seven bits. -/
theorem within_wordAddress (v : UInt8) : Within 0x7F (v / 2).toUInt16 := by
  have hv := v.toNat_lt
  have hseven : (v / 2).toUInt16.toNat < 2 ^ 7 := by
    rw [UInt8.toNat_toUInt16, UInt8.toNat_div]
    show v.toNat / 2 < 2 ^ 7
    omega
  exact within_of_lt (by decide) hseven

end

-- =============================================================== selection

/-- A part that fits the storage, with pages inside of it. -/
structure Chip.Accepted (chip : Chip) : Prop where
  fits : chip.size ≤ storageSize
  pages : Within chip.sizeMask chip.pageMask

/-- Acceptance in terms of the two checks. -/
theorem Chip.accepted_iff (chip : Chip) :
    chip.Accepted ↔ chip.size ≤ storageSize
      ∧ Within chip.sizeMask chip.pageMask :=
  ⟨fun h => ⟨h.fits, h.pages⟩, fun h => ⟨h.1, h.2⟩⟩

instance (chip : Chip) : Decidable chip.Accepted :=
  decidable_of_iff' _ chip.accepted_iff

/-- Every address of an accepted part is inside the storage. -/
theorem Within.lt_storageSize {chip : Chip} {a : UInt16}
    (h : Within chip.sizeMask a) (haccepted : chip.Accepted) :
    a.toNat < storageSize :=
  Nat.lt_of_lt_of_le (Nat.lt_succ_of_le h.le) haccepted.fits

/-- A board that is not known is selected when its part is accepted, and
nothing but the selection changes. -/
theorem selectMapper_eq_ok {e e' : Eeprom} {m : Mapper} :
    e.selectMapper m = .ok e' ↔ m.chip.Accepted
      ∧ e' = { e with mapper := some m } := by
  unfold selectMapper
  by_cases hfits : storageSize < m.chip.size
  · rw [if_pos hfits]
    refine iff_of_false (by simp) fun h => ?_
    exact absurd h.1.fits (Nat.not_le.2 hfits)
  · rw [if_neg hfits]
    by_cases hpages : m.chip.pageMask &&& ~~~m.chip.sizeMask = 0
    · rw [if_neg (by simpa using hpages)]
      have haccepted : m.chip.Accepted :=
        ⟨Nat.not_lt.1 hfits, within_iff.2 hpages⟩
      exact ⟨fun h => ⟨haccepted, (Except.ok.inj h).symm⟩,
        fun h => congrArg _ h.2.symm⟩
    · rw [if_pos (by simpa using hpages)]
      refine iff_of_false (by simp) fun h => ?_
      exact absurd (within_iff.1 h.1.pages) hpages

/-- All boards of the database are accepted. -/
theorem database_accepted :
    ∀ board ∈ Board.database, board.mapper.chip.Accepted := by decide

/-- A known board is always selected, and nothing but the selection changes. -/
theorem select_eq_ok {e e' : Eeprom} {index : Nat} :
    e.select (some index) = .ok e' ↔
      ∃ board, Board.database[index]? = some board
        ∧ e' = { e with mapper := some board.mapper } := by
  simp only [select]
  generalize Board.database[index]? = found
  cases found with
  | none => simp
  | some board => simpa using eq_comm

/-- A board that some selection takes. -/
def Mapper.Selectable (m : Mapper) : Prop :=
  (∃ e e' : Eeprom, e.selectMapper m = .ok e')
    ∨ ∃ board ∈ Board.database, board.mapper = m

/-- What can be selected is accepted. -/
theorem Mapper.Selectable.accepted {m : Mapper} (h : m.Selectable) :
    m.chip.Accepted := by
  rcases h with ⟨e, e', h⟩ | ⟨board, hboard, rfl⟩
  · exact (selectMapper_eq_ok.1 h).1
  · exact database_accepted board hboard

end ConsoleBoard.Eeprom
