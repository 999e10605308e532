/-
What a multitap sends.

The answer of a multitap counts its way through header, types and buttons by
subtraction. Written out, this is one list (`TeamPlayer.sequence`), and the
answer is its nibble at the counter (`nibble_eq`), also where the counter has
stopped at its largest value, since nothing but the idle nibble is left there
(`nibble_saturated`). The counter itself moves with the edges of TH and TR,
and without an edge it stays (`place_of_level`).

# Bounds

The header has a fixed length, a type is one nibble, and a field has three data
nibbles at most (`dataCount_le`), so a sequence ends before the counter does
(`length_sequence_le`). All nibbles fit four lines (`nibble_lt`), which is why
the answer can carry TR beside them (`answer_eq`).
-/
import ConsoleBoard.Controller.Model
import ConsoleBoard.Proofs.Controller.Settled

namespace ConsoleBoard.Controller

-- ============================================================ the sequence

namespace TeamPlayer

/-- The nibbles of buttons that a virtual port sends. -/
def dataNibbles (state : Option Chained) : List UInt8 :=
  (List.range (dataCount state)).map (buttonNibble state)

/-- All that a multitap sends after TH has fallen: the header, the type of each
virtual port, and the buttons of each pad. -/
def sequence (states : List (Option Chained)) : List UInt8 :=
  header ++ states.map typeCode ++ states.flatMap dataNibbles

/-- The data nibbles are as many as the type calls for. -/
private theorem length_dataNibbles (state : Option Chained) :
    (dataNibbles state).length = dataCount state := by
  simp [dataNibbles]

/-- No type has more than three data nibbles. -/
private theorem dataCount_le (state : Option Chained) :
    dataCount state ≤ 3 := by
  unfold dataCount
  split <;> decide

/-- The place in the buttons is counted down port by port. -/
theorem dataNibble_eq (states : List (Option Chained)) (k : Nat) :
    dataNibble states k = (states.flatMap dataNibbles).getD k idle := by
  induction states generalizing k with
  | nil => rfl
  | cons state rest ih =>
      rw [dataNibble, List.flatMap_cons]
      split
      next hk =>
        have hlength : k < (dataNibbles state).length := by
          rwa [length_dataNibbles]
        rw [List.getD_append _ _ _ _ hlength, List.getD_eq_getElem _ _ hlength]
        simp [dataNibbles]
      next hk =>
        have hlength : (dataNibbles state).length ≤ k := by
          rw [length_dataNibbles]
          omega
        rw [List.getD_append_right _ _ _ _ hlength, length_dataNibbles]
        exact ih _

/-- No sequence is longer than the header and four full fields. -/
private theorem length_sequence_le {states : List (Option Chained)}
    (h : states.length = 4) :
    (sequence states).length ≤ 19 := by
  have hdata : ∀ list : List (Option Chained),
      (list.flatMap dataNibbles).length ≤ 3 * list.length := by
    intro list
    induction list with
    | nil => exact Nat.le_refl 0
    | cons state rest ih =>
        have hstate := dataCount_le state
        rw [List.flatMap_cons, List.length_append, length_dataNibbles,
          List.length_cons]
        omega
  have hall := hdata states
  have hheader : header.length = 3 := rfl
  unfold sequence
  rw [List.length_append, List.length_append, List.length_map]
  omega

/-- The nibble at a place is the one of the sequence of what has been seen. -/
theorem nibble_eq (tap : TeamPlayer) (k : Nat) :
    tap.nibble k = (sequence tap.seen.toList).getD k idle := by
  have hheader : header.length = 3 := rfl
  have htypes : (header ++ tap.seen.toList.map typeCode).length = 7 := by
    simp [hheader]
  unfold nibble sequence
  split
  next hk =>
    rw [List.append_assoc, List.getD_append _ _ _ _ (by omega)]
  next hk =>
    split
    next hk' =>
      have hlow : k < 7 := hk'
      have hseen : k - 3 < 4 := by omega
      rw [List.getD_append _ _ _ _ (by omega),
        List.getD_append_right _ _ _ _ (by omega), hheader]
      simp [hseen]
    next hk' =>
      have hhigh : ¬k < 7 := hk'
      rw [List.getD_append_right _ _ _ _ (by omega), htypes, dataNibble_eq]
      congr 1

/-- Behind its end the sequence has nothing but the idle nibble, so a counter
that has stopped gives the same. -/
theorem nibble_saturated (tap : TeamPlayer) (k : Nat) :
    tap.nibble (saturated k) = (sequence tap.seen.toList).getD k idle := by
  have hlength : (sequence tap.seen.toList).length ≤ 19 :=
    length_sequence_le (by simp)
  rw [nibble_eq]
  unfold saturated
  by_cases hk : k ≤ 4294967295
  · rw [Nat.min_eq_left hk]
  · rw [List.getD_eq_default _ _ (by omega),
      List.getD_eq_default _ _ (by omega)]

/-- A button nibble has four bits. -/
theorem buttonNibble_lt (state : Option Chained) (n : Nat) :
    buttonNibble state n < 16 := by
  unfold buttonNibble
  split
  · rw [UInt8.lt_iff_toNat_lt, UInt8.toNat_ofNat']
    exact Nat.lt_of_le_of_lt (Nat.mod_le _ _) (Nat.mod_lt _ (by decide))
  · decide

/-- A nibble of the sequence has four bits. -/
theorem nibble_lt (tap : TeamPlayer) (k : Nat) : tap.nibble k < 16 := by
  have htype : ∀ state, typeCode state < 16 := by
    intro state
    unfold typeCode
    split <;> decide
  have hdata : ∀ states n, dataNibble states n < 16 := by
    intro states
    induction states with
    | nil => exact fun _ => (by decide : idle < 16)
    | cons state rest ih =>
        intro n
        rw [dataNibble]
        split
        · exact buttonNibble_lt _ _
        · exact ih _
  -- the header, then the type codes, then the data
  unfold nibble
  split
  next hk =>
    have hheader : ∀ n : Fin 3, header.getD n.val idle < 16 := by decide
    exact hheader ⟨k, hk⟩
  next hk =>
    split
    · exact htype _
    · exact hdata _ _

-- ============================================================== the answer

/-- With TH high. -/
theorem drive_high (tap : TeamPlayer) {core : Core} (h : core.line .th = true) :
    tap.drive core = ⟨0, core.scanlines, 0xF3⟩ := by
  unfold drive
  rw [if_pos h]

/-- The byte with TH low: a nibble, and TR repeated on TL. -/
def answer (tr : Bool) (v : UInt8) : UInt8 :=
  0xE0 ||| (if tr then 0x10 else 0x00) ||| v

/-- An answer holds its nibble, and shows TR on TL. -/
theorem answer_eq (tr : Bool) {v : UInt8} (h : v < 16) :
    answer tr v &&& 0x0F = v ∧ Pin.tl.isHigh (answer tr v) = tr := by
  have hall : ∀ (tr : Bool) (n : Fin 16),
      answer tr (.ofNat n.val) &&& 0x0F = .ofNat n.val
        ∧ Pin.tl.isHigh (answer tr (.ofNat n.val)) = tr := by decide
  have hv : UInt8.ofNat v.toNat = v := UInt8.ofNat_toNat
  have hlt : v.toNat < 16 := UInt8.lt_iff_toNat_lt.1 h
  have hv' := hall tr ⟨v.toNat, hlt⟩
  rwa [hv] at hv'

/-- The place after an answer with TH low. -/
def place (core : Core) : Nat :=
  if core.fell .th then 0
  else if core.rose .tr || core.fell .tr then saturated (core.counter + 1)
  else core.counter

/-- Where no line moves, the place stays. -/
theorem place_of_level {core now : Core} (h : core.Settled)
    (hbefore : now.linesBefore = core.linesBefore)
    (hlevel : ∀ pin, now.level pin = core.level pin) :
    place now.senseLines = now.counter := by
  have hfell : ∀ pin, now.senseLines.fell pin = false := fun pin => by
    rw [h.fell pin now hbefore, hlevel, Bool.and_not_self]
  have hrose : now.senseLines.rose .tr = false := by
    rw [h.rose .tr now hbefore, hlevel, Bool.not_and_self]
  unfold place
  rw [hfell, hrose, hfell]
  rfl

/-- With TH low, a multitap answers with the nibble it has come to. -/
theorem drive_low (tap : TeamPlayer) {core : Core} (h : core.line .th = false) :
    tap.drive core
      = ⟨place core, core.scanlines,
        answer (core.line .tr) (tap.nibble (place core))⟩ := by
  unfold drive
  rw [if_neg (by rw [h]; decide)]
  rfl

end TeamPlayer

theorem Model.eq_teamPlayer {m : Model} (h : m.kind = .teamPlayer) :
    ∃ tap, m = .teamPlayer tap := by
  cases m with
  | teamPlayer tap => exact ⟨tap, rfl⟩
  | none | twoButton | threeButton | sixButton | paddle | coleco => cases h

end ConsoleBoard.Controller
