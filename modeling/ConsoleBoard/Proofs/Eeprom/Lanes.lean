/-
Bytes and words at the ports of a part.

A word is its two bytes side by side, and each has a lane of its own: the byte
at the even address is the high half (`half`). A line is a bit of one byte, so a
word has a level for it just where the byte in its lane has one (`inWord?_eq`),
and what a word does to the lines is what its bytes do, with one exception:
where the two lines are in different lanes of one word, the word moves both of
them in one event, and no single byte could.

What the ports decode is the same wiring once more. A write at an address moves
some line, or it changes nothing whatever is written; a read there shows the
data line, or the same for any part of this wiring (`changes_iff`,
`reports_iff`).
-/
import ConsoleBoard.Pair
import ConsoleBoard.Proofs.Eeprom.Write

namespace ConsoleBoard.Eeprom

-- ========================================================= words and bytes

private theorem andNot_or (a b : UInt32) : (a &&& ~~~b) ||| b = a ||| b := by
  apply UInt32.toBitVec_inj.1
  ext i hi
  simp only [UInt32.toBitVec_or, UInt32.toBitVec_and, UInt32.toBitVec_not,
    BitVec.getElem_or, BitVec.getElem_and, BitVec.getElem_not]
  cases a.toBitVec[i] <;> cases b.toBitVec[i] <;> rfl

private theorem or_andNot (a b : UInt32) : (a ||| b) &&& ~~~b = a &&& ~~~b := by
  apply UInt32.toBitVec_inj.1
  ext i hi
  simp only [UInt32.toBitVec_or, UInt32.toBitVec_and, UInt32.toBitVec_not,
    BitVec.getElem_or, BitVec.getElem_and, BitVec.getElem_not]
  cases a.toBitVec[i] <;> cases b.toBitVec[i] <;> rfl

private theorem odd_even (a : UInt32) : odd (even a) = odd a := andNot_or a 1

private theorem even_odd (a : UInt32) : even (odd a) = even a := or_andNot a 1

/-- Both name the word that an address is in. -/
theorem odd_eq_odd_iff {a b : UInt32} : odd a = odd b ↔ even a = even b := by
  constructor
  · intro h
    rw [← even_odd a, h, even_odd]
  · intro h
    rw [← odd_even a, h, odd_even]

/-- The half of a word that belongs to an address. -/
def half (w : UInt16) (address : UInt32) : UInt8 :=
  if address % 2 = 0 then (Pair.ofWord w).high else (Pair.ofWord w).low

/-- A byte in the lane of an address, with nothing beside it. -/
def inLane (v : UInt8) (address : UInt32) : UInt16 :=
  if address % 2 = 0 then (Pair.mk v 0).toWord else (Pair.mk 0 v).toWord

/-- A bit of the half is the line's bit of the word. -/
private theorem testBit_half (w : UInt16) {line : Line} (h : line.bit < 8) :
    (half w line.address).toNat.testBit line.bit
      = w.toNat.testBit line.wordBit := by
  unfold half Line.wordBit
  split
  · rw [Pair.toNat_high_ofWord]
    exact Nat.testBit_div_two_pow (n := 8) w.toNat line.bit
  · rw [Pair.toNat_low_ofWord]
    exact (Nat.testBit_mod_two_pow w.toNat 8 line.bit).trans
      (by rw [decide_eq_true h, Bool.true_and])

/-- A bit moved into its lane is the line's bit of a word. -/
private theorem inLane_bit {line : Line} (h : line.bit < 8) :
    inLane (UInt8.ofNat (1 <<< line.bit)) line.address
      = UInt16.ofNat (1 <<< line.wordBit) := by
  have hall : ∀ n : Fin 8,
      (Pair.mk (UInt8.ofNat (1 <<< n.val)) 0).toWord
        = UInt16.ofNat (1 <<< (n.val + 8))
        ∧ (Pair.mk 0 (UInt8.ofNat (1 <<< n.val))).toWord
          = UInt16.ofNat (1 <<< n.val) := by
    decide
  obtain ⟨hhigh, hlow⟩ := hall ⟨line.bit, h⟩
  unfold inLane Line.wordBit
  split
  · exact hhigh
  · exact hlow

-- =================================================================== lines

/-- A word has a level for a line just where the byte in its lane has one. -/
theorem inWord?_eq {line : Line} (h : line.bit < 8) (a : UInt32) (w : UInt16) :
    line.inWord? a w
      = if even a = even line.address then line.inByte? line.address
        (half w line.address)
        else none := by
  unfold Line.inWord? Line.inByte?
  rw [if_pos rfl, testBit_half w h]

/-- A byte written in the lane of one line has the level of another just where
the word has it, unless the two are in different lanes of one word. -/
theorem inByte?_half {line other : Line} (hother : other.bit < 8)
    (h : line.address = other.address ∨ even line.address ≠ even other.address)
    {a : UInt32} (ha : even a = even line.address) (w : UInt16) :
    other.inByte? line.address (half w line.address) = other.inWord? a w := by
  rw [inWord?_eq hother, ha]
  rcases h with hsame | happart
  · rw [hsame, if_pos rfl]
  · have hne : line.address ≠ other.address :=
      fun hsame => happart (congrArg even hsame)
    unfold Line.inByte?
    rw [if_neg happart, if_neg hne]

/-- Among the values that a write may have there is one for each level of a
line, if it reaches the line at all. -/
structure Drives {β : Type} (level : β → Option Bool)
    (reached : Prop) : Prop where
  levels : reached → ∀ b, ∃ v, level v = some b
  none : ¬reached → ∀ v, level v = .none

/-- A byte drives the line at its own address. -/
theorem Line.drives_inByte? {line : Line} (h : line.bit < 8) (a : UInt32) :
    Drives (line.inByte? a) (a = line.address) where
  levels ha b := by
    have hones : (0xFF : UInt8).toNat.testBit line.bit = true := by
      rw [show (0xFF : UInt8).toNat = 2 ^ 8 - 1 from rfl,
        Nat.testBit_two_pow_sub_one, decide_eq_true h]
    cases b with
    | false =>
        exact ⟨0, (if_pos ha).trans (congrArg some (Nat.zero_testBit line.bit))⟩
    | true => exact ⟨0xFF, (if_pos ha).trans (congrArg some hones)⟩
  none ha _ := if_neg ha

/-- A word drives the line at either address of its own word. -/
theorem Line.drives_inWord? {line : Line} (h : line.bit < 8) (a : UInt32) :
    Drives (line.inWord? a) (even a = even line.address) where
  levels ha b := by
    have hbit : line.wordBit < 16 := by
      unfold Line.wordBit
      split <;> omega
    have hones : (0xFFFF : UInt16).toNat.testBit line.wordBit = true := by
      rw [show (0xFFFF : UInt16).toNat = 2 ^ 16 - 1 from rfl,
        Nat.testBit_two_pow_sub_one, decide_eq_true hbit]
    cases b with
    | false =>
        exact ⟨0, (if_pos ha).trans
          (congrArg some (Nat.zero_testBit line.wordBit))⟩
    | true => exact ⟨0xFFFF, (if_pos ha).trans (congrArg some hones)⟩
  none ha _ := if_neg ha

-- ======================================================== what they decode

section

variable {e : Eeprom} {m : Mapper}

/-- Driven levels are on the lines. -/
private theorem lines_writeLevels (hm : e.mapper = some m) (scl sdaIn : Bool) :
    (e.writeLevels scl sdaIn).regs.scl = scl
      ∧ (e.writeLevels scl sdaIn).regs.sdaIn = sdaIn := by
  rw [writeLevels_eq hm]
  split
  · exact ⟨rfl, rfl⟩
  · exact (reaction_react m.chip { e with regs := e.regs.driven scl sdaIn }
      (e.regs.driven scl sdaIn).event).lines_eq

/-- A write that turns a line over has changed the part. -/
theorem writeLines_ne (hm : e.mapper = some m) {scl sdaIn : Option Bool}
    (h : scl = some (!e.regs.scl) ∨ sdaIn = some (!e.regs.sdaIn)) :
    e.writeLines scl sdaIn ≠ e := by
  intro hsame
  rcases h with rfl | rfl
  · have hscl : (e.writeLines (some (!e.regs.scl)) sdaIn).regs.scl
        = !e.regs.scl :=
      (lines_writeLevels hm _ _).1
    rw [hsame] at hscl
    exact (Bool.not_eq_self _).1 hscl.symm
  · have hput : e.writeLines scl (some (!e.regs.sdaIn))
        = e.writeLevels (scl.getD e.regs.sclBefore) (!e.regs.sdaIn) := by
      cases scl <;> rfl
    have hsda : (e.writeLines scl (some (!e.regs.sdaIn))).regs.sdaIn
        = !e.regs.sdaIn := by
      rw [hput]
      exact (lines_writeLevels hm _ _).2
    rw [hsame] at hsda
    exact (Bool.not_eq_self _).1 hsda.symm

/-- Some value changes the part if and only if a line is reached. -/
theorem changes_iff (hm : e.mapper = some m) {β : Type}
    {scl sdaIn : β → Option Bool} {hasScl hasSda : Prop}
    (hscl : Drives scl hasScl) (hsda : Drives sdaIn hasSda) :
    (∃ v, e.writeLines (scl v) (sdaIn v) ≠ e) ↔ hasScl ∨ hasSda := by
  constructor
  · rintro ⟨v, hv⟩
    refine Classical.byContradiction fun hneither => ?_
    rw [not_or] at hneither
    rw [hscl.none hneither.1, hsda.none hneither.2] at hv
    exact hv rfl
  · rintro (hreached | hreached)
    · obtain ⟨v, hv⟩ := hscl.levels hreached (!e.regs.scl)
      exact ⟨v, writeLines_ne hm (.inl hv)⟩
    · obtain ⟨v, hv⟩ := hsda.levels hreached (!e.regs.sdaIn)
      exact ⟨v, writeLines_ne hm (.inr hv)⟩

end

/-- A read shows the level of the data line: among the states of a part with
this wiring it tells those apart, and only those, in which the level differs. -/
def Reports {α : Type} (read : Eeprom → α) (e : Eeprom) : Prop :=
  ∀ e', e'.mapper = e.mapper → (read e' = read e ↔ e'.regs.sda = e.regs.sda)

/-- The same part with the data line at a level. -/
def withSda (e : Eeprom) (level : Bool) : Eeprom :=
  { e with regs := { e.regs with sdaIn := level, sdaOut := true } }

private theorem sda_withSda (e : Eeprom) (level : Bool) :
    (e.withSda level).regs.sda = level :=
  Bool.and_true level

/-- A read with two values for the two levels reports them, and one that is open
bus does not. -/
theorem reports_iff {α : Type} {read : Eeprom → α} {e : Eeprom} {shown : Prop}
    [Decidable shown] {high low floating : α} (hne : high ≠ low)
    (hread : ∀ e', e'.mapper = e.mapper →
      read e' = if shown then (if e'.regs.sda then high else low)
        else floating) :
    Reports read e ↔ shown := by
  constructor
  · intro hreports
    refine Classical.byContradiction fun hhidden => ?_
    have hother := hread (e.withSda (!e.regs.sda)) rfl
    have hnow := hread e rfl
    rw [if_neg hhidden] at hother hnow
    have hsda :=
      (hreports (e.withSda (!e.regs.sda)) rfl).1 (hother.trans hnow.symm)
    rw [sda_withSda] at hsda
    exact (Bool.not_eq_self _).1 hsda
  · intro hshown e' he'
    rw [hread e' he', hread e rfl, if_pos hshown, if_pos hshown]
    cases e'.regs.sda <;> cases e.regs.sda <;> simp [hne, hne.symm]

-- ============================================================= the theorem

/-- Every line of a board is a bit of a byte. -/
structure Mapper.InByte (m : Mapper) : Prop where
  scl : m.scl.bit < 8
  sdaIn : m.sdaIn.bit < 8
  sdaOut : m.sdaOut.bit < 8

section

variable {e : Eeprom} {m : Mapper}

private theorem writeByte_eq (hm : e.mapper = some m) (a : UInt32) (v : UInt8) :
    e.writeByte a v = e.writeLines (m.scl.inByte? a v)
      (m.sdaIn.inByte? a v) := by
  unfold writeByte
  rw [hm]

private theorem writeWord_eq (hm : e.mapper = some m) (a : UInt32)
    (w : UInt16) :
    e.writeWord a w = e.writeLines (m.scl.inWord? a w)
      (m.sdaIn.inWord? a w) := by
  unfold writeWord
  rw [hm]

/-- A byte is read off the outgoing line at its address, and is open
elsewhere. -/
private theorem readByte_eq (hm : e.mapper = some m) (a : UInt32) :
    e.readByte a = if a = m.sdaOut.address then
      (if e.regs.sda then UInt8.ofNat (1 <<< m.sdaOut.bit) else 0)
        else 0xFF := by
  unfold readByte
  rw [hm]

/-- A word is read off the outgoing line in its own word, and is open
elsewhere. -/
private theorem readWord_eq (hm : e.mapper = some m) (a : UInt32) :
    e.readWord a = if even a = even m.sdaOut.address then
      (if e.regs.sda then UInt16.ofNat (1 <<< m.sdaOut.wordBit) else 0)
        else 0xFFFF := by
  unfold readWord
  rw [hm]

/-- A bit of a byte is not nothing. -/
theorem bit_ne_zero {line : Line} (h : line.bit < 8) :
    UInt8.ofNat (1 <<< line.bit) ≠ 0 := by
  have hall : ∀ n : Fin 8, UInt8.ofNat (1 <<< n.val) ≠ 0 := by decide
  exact hall ⟨line.bit, h⟩

private theorem wordBit_ne_zero {line : Line} (h : line.bit < 8) :
    UInt16.ofNat (1 <<< line.wordBit) ≠ 0 := by
  have hall : ∀ n : Fin 16, UInt16.ofNat (1 <<< n.val) ≠ 0 := by decide
  have hbit : line.wordBit < 16 := by
    unfold Line.wordBit
    split <;> omega
  exact hall ⟨line.wordBit, hbit⟩

/-- A word is written by the byte in the lane of a line, unless the other line
is in the other lane. -/
theorem writeWord_of_apart (hm : e.mapper = some m) (hbits : m.InByte)
    (happart : m.scl.address = m.sdaIn.address
      ∨ even m.scl.address ≠ even m.sdaIn.address)
    {line : Line} (hline : line = m.scl ∨ line = m.sdaIn) {a : UInt32}
    (ha : even a = even line.address) (w : UInt16) :
    e.writeWord a w = e.writeByte line.address (half w line.address) := by
  have hscl : line.address = m.scl.address
      ∨ even line.address ≠ even m.scl.address := by
    rcases hline with rfl | rfl
    · exact .inl rfl
    · exact happart.imp Eq.symm Ne.symm
  have hsda : line.address = m.sdaIn.address
      ∨ even line.address ≠ even m.sdaIn.address := by
    rcases hline with rfl | rfl
    · exact happart
    · exact .inl rfl
  rw [writeWord_eq hm, writeByte_eq hm, inByte?_half hbits.scl hscl ha,
    inByte?_half hbits.sdaIn hsda ha]

/-- A word that both lines are in puts the level of each from its own half. -/
theorem writeWord_of_together (hm : e.mapper = some m) (hbits : m.InByte)
    {a : UInt32} (hscl : even a = even m.scl.address)
    (hsda : even a = even m.sdaIn.address) (w : UInt16) :
    e.writeWord a w = e.writeLevels
      ((half w m.scl.address).toNat.testBit m.scl.bit)
      ((half w m.sdaIn.address).toNat.testBit m.sdaIn.bit) := by
  rw [writeWord_eq hm, testBit_half w hbits.scl, testBit_half w hbits.sdaIn]
  unfold Line.inWord?
  rw [if_pos hscl, if_pos hsda]
  rfl

/-- A word shows the byte of the data line in its lane. -/
theorem readWord_of_lane (hm : e.mapper = some m) (hbits : m.InByte)
    (a : UInt32) :
    e.readWord a = if even a = even m.sdaOut.address
      then inLane (e.readByte m.sdaOut.address) m.sdaOut.address
      else 0xFFFF := by
  rw [readWord_eq hm, readByte_eq hm, if_pos rfl, ← inLane_bit hbits.sdaOut]
  cases e.regs.sda with
  | true => rfl
  | false =>
      have hnothing : inLane 0 m.sdaOut.address = 0 := by
        unfold inLane
        split <;> rfl
      show (if _ then 0 else _) = if _ then inLane 0 m.sdaOut.address else _
      rw [hnothing]

/-- Words and bytes at the ports agree. Let a board have its lines in bits 0 to
7, wherever they are, and take any state of the part, any address and any word.

Where the clock and the data line are in one byte or in different words, a word
does what its half does as a byte at the wired address. With neither line in it
it does nothing. Where the two are in the two halves of one word it puts each
level from its own half, and the part sees both as one event. A word that is
read has the byte of the data line in its lane, and is open bus elsewhere.

The ports are decoded to match: a write at an address is for the part if and
only if some value written there changes its state, and a read if and only if
what is read tells the level of the data line. -/
theorem word_access_by_lanes (hm : e.mapper = some m) (hbits : m.InByte)
    (a : UInt32) (w : UInt16) :
    (m.scl.address = m.sdaIn.address
      ∨ even m.scl.address ≠ even m.sdaIn.address →
        ∀ line, line = m.scl ∨ line = m.sdaIn → even a = even line.address →
          e.writeWord a w = e.writeByte line.address (half w line.address))
      ∧ (even a ≠ even m.scl.address → even a ≠ even m.sdaIn.address →
        e.writeWord a w = e)
      ∧ (m.scl.address ≠ m.sdaIn.address →
        even m.scl.address = even m.sdaIn.address →
          even a = even m.scl.address →
          e.writeWord a w = e.writeLevels
            ((half w m.scl.address).toNat.testBit m.scl.bit)
            ((half w m.sdaIn.address).toNat.testBit m.sdaIn.bit))
      ∧ e.readWord a = (if even a = even m.sdaOut.address
          then inLane (e.readByte m.sdaOut.address) m.sdaOut.address
          else 0xFFFF)
      ∧ (e.isWriteBytePort a = true ↔ ∃ v, e.writeByte a v ≠ e)
      ∧ (e.isWriteWordPort a = true ↔ ∃ v, e.writeWord a v ≠ e)
      ∧ (e.isReadBytePort a = true ↔ Reports (·.readByte a) e)
      ∧ (e.isReadWordPort a = true ↔ Reports (·.readWord a) e) := by
  refine ⟨fun happart line hline ha =>
    writeWord_of_apart hm hbits happart hline ha w, ?_,
    fun _ hword hscl =>
      writeWord_of_together hm hbits hscl (hscl.trans hword) w,
    readWord_of_lane hm hbits a, ?_, ?_, ?_, ?_⟩
  · intro hscl hsda
    rw [writeWord_eq hm, (Line.drives_inWord? hbits.scl a).none hscl,
      (Line.drives_inWord? hbits.sdaIn a).none hsda]
    rfl
  · -- a port is decoded if and only if a level is read from the value there
    have hchanges := changes_iff hm (Line.drives_inByte? hbits.scl a)
      (Line.drives_inByte? hbits.sdaIn a)
    simp only [writeByte_eq hm, hchanges, isWriteBytePort, mapped, hm,
      Bool.or_eq_true, beq_iff_eq]
  · have hchanges := changes_iff hm (Line.drives_inWord? hbits.scl a)
      (Line.drives_inWord? hbits.sdaIn a)
    simp only [writeWord_eq hm, hchanges, isWriteWordPort, mapped, hm,
      Bool.or_eq_true, beq_iff_eq, odd_eq_odd_iff]
  · have hreports : Reports (·.readByte a) e ↔ a = m.sdaOut.address :=
      reports_iff (bit_ne_zero hbits.sdaOut) fun e' he' =>
        readByte_eq (he'.trans hm) a
    rw [hreports, isReadBytePort, mapped, hm, beq_iff_eq]
  · have hreports : Reports (·.readWord a) e ↔ even a = even m.sdaOut.address :=
      reports_iff (wordBit_ne_zero hbits.sdaOut) fun e' he' =>
        readWord_eq (he'.trans hm) a
    rw [hreports, isReadWordPort, mapped, hm, beq_iff_eq, odd_eq_odd_iff]

/-- A board with the clock at an even address and the data line beside it. One
word pulls both lines low in one event, which is a fall of the clock; the byte
of the data line alone is a start condition. The idle line is read in the high
lane. -/
theorem word_access_by_lanes_split :
    let m : Mapper := ⟨.x24C01, ⟨0x200000, 1⟩, ⟨0x200001, 0⟩, ⟨0x200000, 7⟩⟩
    let e : Eeprom := ⟨some m, erased, {}⟩
    m.InByte ∧ m.scl.address ≠ m.sdaIn.address
      ∧ even m.scl.address = even m.sdaIn.address
      ∧ even 0x200001 = even m.scl.address
      ∧ (e.writeWord 0x200001 0x00FE).regs.scl = false
      ∧ (e.writeWord 0x200001 0x00FE).regs.phase = .standby
      ∧ (e.writeByte 0x200001 0xFE).regs.phase = .wordAddress
      ∧ e.readWord 0x200001 = 0x8000
      ∧ (∃ v, e.writeWord 0x200001 v ≠ e)
      ∧ ¬Reports (·.readByte 0x200001) e := by
  intro m e
  have hbits : m.InByte := ⟨by decide, by decide, by decide⟩
  obtain ⟨-, -, htogether, hread, -, hchanges, hreports, -⟩ :=
    word_access_by_lanes (e := e) (m := m) rfl hbits 0x200001 0x00FE
  have hne : m.scl.address ≠ m.sdaIn.address := by decide
  have hword : even m.scl.address = even m.sdaIn.address := by decide
  have ha : even 0x200001 = even m.scl.address := by decide
  refine ⟨hbits, hne, hword, ha, ?_,
    ?_, by decide, ?_, hchanges.1 (by decide), fun h => ?_⟩
  · rw [htogether hne hword ha]
    decide
  · rw [htogether hne hword ha]
    decide
  · rw [hread]
    decide
  · exact absurd (hreports.2 h) (by decide)

end

end ConsoleBoard.Eeprom
