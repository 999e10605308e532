/-
The clock counter of the byte in flight.

A received byte takes nine clocks, and the ninth is the only one that can be
counted twice: the answer to a byte of data leaves the counter at nine, and it
is the fall of that clock which takes it back. So the counter stays in its
range as long as no clock rises behind an answered byte whose fall the part
has missed (`Registers.Overdue`). On the lines a rise follows a fall, but the
part does not see every fall: a loaded snapshot may have it behind it, and a
part without an address does not look at the lines at all, so that the fall is
lost when such a part is selected for the time of it. Nothing else makes a
byte overdue (`not_overdue_call`), and without it the counter is at most nine
for ever; with it, there is no bound (`counter_unbounded`).
-/
import ConsoleBoard.Proofs.Eeprom.Host
import ConsoleBoard.Proofs.Eeprom.Master

namespace ConsoleBoard.Eeprom

-- =========================================================== the condition

/-- A byte of data has been answered, and its ninth clock is still counted. -/
def Registers.Answered (r : Registers) : Prop :=
  r.phase = .writeData ∧ r.shiftOut = false ∧ 9 ≤ r.counter

/-- The clock of the answer has fallen, and the part has not seen it. -/
def Registers.Overdue (r : Registers) : Prop := r.Answered ∧ r.sclBefore = false

instance (r : Registers) : Decidable r.Answered :=
  inferInstanceAs
    (Decidable (r.phase = .writeData ∧ r.shiftOut = false ∧ 9 ≤ r.counter))

instance (r : Registers) : Decidable r.Overdue :=
  inferInstanceAs (Decidable (r.Answered ∧ r.sclBefore = false))

/-- No clock rises behind an overdue byte in sight of the part. -/
def InTime (e : Eeprom) : Call → Prop
  | .write w => e.event w = .rise → e.isTypeSet = true → ¬e.regs.Overdue
  | _ => True

/-- The fall of an answer is not hidden from the part: no snapshot is loaded
that has it behind it, and at the write that makes it a part is selected that
looks at the lines. -/
def FallSeen (e : Eeprom) : Call → Prop
  | .restore r => ¬r.Overdue
  | .write w => e.event w = .fall → e.regs.Answered → e.isTypeSet = true
  | _ => True

instance (e : Eeprom) : (c : Call) → Decidable (InTime e c)
  | .write w =>
    inferInstanceAs
      (Decidable (e.event w = .rise → e.isTypeSet = true → ¬e.regs.Overdue))
  | .select _ | .selectMapper _ | .reset | .restore _ => .isTrue trivial

instance (e : Eeprom) : (c : Call) → Decidable (FallSeen e c)
  | .restore r => inferInstanceAs (Decidable ¬r.Overdue)
  | .write w =>
    inferInstanceAs
      (Decidable (e.event w = .fall → e.regs.Answered → e.isTypeSet = true))
  | .select _ | .selectMapper _ | .reset => .isTrue trivial

section

variable {e e' : Eeprom}

/-- A type is set when its size mask is. -/
theorem isTypeSet_iff {m : Mapper} (hm : e.mapper = some m) :
    e.isTypeSet = true ↔ m.chip.sizeMask ≠ 0 := by
  unfold isTypeSet
  rw [hm]
  exact bne_iff_ne

-- ================================================================ one rule

/-- The counter leaves its range at a rise behind an answered byte, and at no
other event. -/
theorem Reaction.counter_le_iff {chip : Chip} {event : Event}
    {access : Option Access} (h : Reaction chip e event access e')
    (hcounter : e.regs.counter ≤ 9) :
    e'.regs.counter ≤ 9 ↔ ¬(event = .rise ∧ e.regs.Answered) := by
  cases h with
  | byteIn hphase hin hwhole =>
      show e.regs.counter + 1 ≤ 9 ↔ ¬(Event.rise = .rise ∧ e.regs.Answered)
      simp only [Registers.Answered, hphase, hin, true_and]
      omega
  | bitIn hphase hin hfew =>
      refine iff_of_true ?_ fun h => ?_
      · show e.regs.counter + 1 ≤ 9
        omega
      · exact absurd h.2.2.2 (by omega)
  | bitOut hphase hout hfew =>
      refine iff_of_true ?_ fun h => nomatch h.1
      show e.regs.counter + 1 ≤ 9
      omega
  | fallIn hphase hin =>
      refine iff_of_true ?_ fun h => nomatch h.1
      show (if 9 ≤ e.regs.counter then 0 else e.regs.counter) ≤ 9
      split <;> omega
  -- what is left takes the counter back to zero, or leaves it in another phase
  | stop | start _ | startOther _ =>
      exact iff_of_true (Nat.zero_le 9) fun h => nomatch h.1
  | quiet | fallStandby _ | fallOut _ _ _ =>
      exact iff_of_true hcounter fun h => nomatch h.1
  | releaseOut _ _ _ => exact iff_of_true (Nat.le_refl 9) fun h => nomatch h.1
  | riseStandby hphase =>
      exact iff_of_true hcounter fun h => nomatch hphase.symm.trans h.2.1
  | riseOut _ hout _ =>
      exact iff_of_true hcounter fun h => nomatch hout.symm.trans h.2.2.1
  | addressRead hphase _ _ _ | addressWrite hphase _ _ _ =>
      exact iff_of_true (Nat.zero_le 9) fun h => nomatch hphase.symm.trans h.2.1
  | nextOut _ hout _ _ | strayOut _ _ hout _ _ =>
      exact iff_of_true (Nat.zero_le 9) fun h => nomatch hout.symm.trans h.2.2.1
  | strayIn _ _ hdata _ _ =>
      exact iff_of_true (Nat.zero_le 9) fun h => absurd h.2.1 hdata

/-- A byte is answered in the rise of its clock, and no longer when it falls. -/
theorem Reaction.answered {chip : Chip} {event : Event} {access : Option Access}
    (h : Reaction chip e event access e') (hanswered : e'.regs.Answered) :
    event ≠ .fall ∧ (e.regs.Answered ∨ event = .rise) := by
  obtain ⟨hphase', hin', hcounter'⟩ := hanswered
  cases h with
  | quiet => exact ⟨nofun, .inl ⟨hphase', hin', hcounter'⟩⟩
  | fallIn hphase hin =>
      have htaken : 9 ≤ (if 9 ≤ e.regs.counter then 0 else e.regs.counter) :=
        hcounter'
      split at htaken <;> omega
  | stop | start _ | startOther _ => cases hcounter'
  | fallStandby hphase => cases hphase.symm.trans hphase'
  | bitOut _ hout _ | releaseOut _ hout _ | fallOut _ hout _ =>
      cases hout.symm.trans hin'
  | _ => exact ⟨nofun, .inr rfl⟩

-- =============================================================== one write

/-- A rise comes from a low clock. -/
theorem Registers.event_rise {r : Registers} (h : r.event = .rise) :
    r.sclBefore = false := by
  unfold Registers.event at h
  split at h
  · split at h <;> cases h
  · assumption
  · cases h
  · cases h

/-- The level of the clock that a write leaves behind. -/
theorem sclBefore_write (e : Eeprom) (w : LineWrite) :
    (e.write w).regs.sclBefore = match e.event w with
      | .fall => false
      | .quiet => e.regs.sclBefore
      | .rise | .start | .stop => true := by
  rw [write_eq]
  unfold event
  cases hseen : e.seen? w with
  | none => rfl
  | some seen =>
      obtain ⟨chip, r⟩ := seen
      obtain ⟨m, scl, sdaIn, hm, rfl, rfl⟩ := seen?_eq hseen
      -- whether the part reacts or is unheard, the level is settled the same
      have hlevel : ∀ r : Registers,
          (if m.chip.sizeMask = 0 then settle { e with regs := r }
            else (react m.chip { e with regs := r } r.event).settle
              ).regs.sclBefore = r.scl := by
        intro r
        split
        · rfl
        · exact (reaction_react m.chip { e with regs := r } r.event).lines_eq.1
      dsimp only
      rw [hlevel]
      show scl = match (e.regs.driven scl sdaIn).event with
        | .fall => false
        | .quiet => e.regs.sclBefore
        | .rise | .start | .stop => true
      unfold Registers.event Registers.driven
      cases e.regs.sclBefore <;> cases scl <;> cases e.regs.sdaInBefore
        <;> cases sdaIn <;> rfl

private theorem isTypeSet_eq_false
    (hmask : ∀ m, e.mapper = some m → m.chip.sizeMask = 0) :
    e.isTypeSet = false := by
  cases hm : e.mapper with
  | none => simp only [isTypeSet, hm]
  | some m => simp only [isTypeSet, hm, hmask m hm, bne_self_eq_false]

/-- A write keeps the counter in its range just if it is in time. -/
theorem Written.counter_le_iff {w : LineWrite} {access : Option Access}
    (h : Written e w access e') (hcounter : e.regs.counter ≤ 9) :
    e'.regs.counter ≤ 9 ↔ InTime e (.write w) := by
  cases h with
  | missed hquiet =>
      exact iff_of_true hcounter fun hrise => nomatch hquiet.symm.trans hrise
  | unheard scl sdaIn hmask =>
      refine iff_of_true hcounter fun _ hset => ?_
      cases (isTypeSet_eq_false hmask).symm.trans hset
  | @reacted m _ e' scl sdaIn hm hmask hevent hrule =>
      refine (hrule.counter_le_iff hcounter).trans
        ⟨fun h hrise _ hoverdue => ?_, fun h hlate => ?_⟩
      · exact h ⟨hrise, hoverdue.1⟩
      · -- the clock that rises was low before
        obtain ⟨hrise, hanswered⟩ := hlate
        have hlow := Registers.event_rise (hevent.symm.trans hrise)
        exact h hrise ((isTypeSet_iff hm).2 hmask) ⟨hanswered, hlow⟩

/-- An answered byte was answered before, or a rise has answered it, and no
fall was missed. -/
theorem Written.answered {w : LineWrite} {access : Option Access}
    (h : Written e w access e') (hanswered : e'.regs.Answered) :
    (e.event w = .fall → e.isTypeSet = false)
      ∧ (e.regs.Answered ∨ e.event w = .rise) := by
  cases h with
  | missed hquiet =>
      exact ⟨fun hfall => (nomatch hquiet.symm.trans hfall), .inl hanswered⟩
  | unheard scl sdaIn hmask =>
      exact ⟨fun _ => isTypeSet_eq_false hmask, .inl hanswered⟩
  | reacted scl sdaIn hm hmask hevent hrule =>
      obtain ⟨hfall, hbefore⟩ := hrule.answered hanswered
      exact ⟨fun h => absurd h hfall, hbefore⟩

/-- A write whose fall is seen leaves nothing overdue. -/
theorem not_overdue_write {w : LineWrite} (hbefore : ¬e.regs.Overdue)
    (hseen : FallSeen e (.write w)) : ¬(e.write w).regs.Overdue := by
  rintro ⟨hanswered, hlow⟩
  obtain ⟨hunset, hfrom⟩ := (written_write e w).answered hanswered
  rw [sclBefore_write] at hlow
  cases hevent : e.event w with
  | rise | start | stop =>
      rw [hevent] at hlow
      cases hlow
  | quiet =>
      rw [hevent] at hlow hfrom
      exact hbefore ⟨hfrom.resolve_right nofun, hlow⟩
  | fall =>
      rw [hevent] at hfrom
      have hset := hseen hevent (hfrom.resolve_right nofun)
      cases (hunset hevent).symm.trans hset

-- =============================================================== every run

/-- A call keeps the counter in its range just if it is in time. -/
theorem counter_call_le_iff (hcounter : e.regs.counter ≤ 9) (c : Call) :
    (e.call c).regs.counter ≤ 9 ↔ InTime e c := by
  have hselected : c.Selects → (e.call c).regs.counter ≤ 9 := fun hc => by
    rw [((called_call e c).eq_of_selects hc).1]
    exact hcounter
  cases c with
  | write w => exact (written_write e w).counter_le_iff hcounter
  | reset => exact iff_of_true (Nat.zero_le 9) trivial
  | restore r => exact iff_of_true (Nat.min_le_right r.counter 9) trivial
  | selectMapper m => exact iff_of_true (hselected trivial) trivial
  | select index =>
      cases index with
      | none => exact iff_of_true (Nat.zero_le 9) trivial
      | some index => exact iff_of_true (hselected trivial) trivial

theorem not_overdue_call (hbefore : ¬e.regs.Overdue) {c : Call}
    (hseen : FallSeen e c) :
    ¬(e.call c).regs.Overdue := by
  have hselected : c.Selects → ¬(e.call c).regs.Overdue := fun hc => by
    rw [((called_call e c).eq_of_selects hc).1]
    exact hbefore
  cases c with
  | write w => exact not_overdue_write hbefore hseen
  | reset => exact fun h => nomatch h.1.1
  | restore r =>
      rintro ⟨⟨hphase, hin, hcounter⟩, hlow⟩
      exact hseen ⟨⟨hphase, hin, Nat.le_trans hcounter
          (Nat.min_le_left r.counter 9)⟩, hlow⟩
  | selectMapper m => exact hselected trivial
  | select index =>
      cases index with
      | none => exact fun h => nomatch h.1.1
      | some index => exact hselected trivial

/-- A run keeps the counter in its range just if each of its calls is in time.
-/
private theorem counter_run_le_iff (hcounter : e.regs.counter ≤ 9)
    (calls : List Call) :
    (∀ k, (e.run (calls.take k)).regs.counter ≤ 9) ↔ Along InTime e calls := by
  induction calls generalizing e with
  | nil =>
      exact iff_of_true (fun k => by rw [List.take_nil]; exact hcounter) trivial
  | cons c rest ih =>
      have hcall := counter_call_le_iff hcounter c
      constructor
      · intro h
        have hfirst : (e.call c).regs.counter ≤ 9 := h 1
        exact ⟨hcall.1 hfirst, (ih hfirst).1 fun k => h (k + 1)⟩
      · intro h k
        cases k with
        | zero => exact hcounter
        | succ k => exact (ih (hcall.2 h.1)).2 h.2 k

/-- A run whose falls are seen is in time. -/
private theorem inTime_of_fallSeen (hbefore : ¬e.regs.Overdue)
    {calls : List Call} (hseen : Along FallSeen e calls) :
    Along InTime e calls := by
  induction calls generalizing e with
  | nil => trivial
  | cons c rest ih =>
      refine ⟨?_, ih (not_overdue_call hbefore hseen.1) hseen.2⟩
      cases c with
      | write w => exact fun _ _ => hbefore
      | _ => trivial

/-- In every run the clocks of the byte in flight are at most nine after each
call, exactly as long as no clock rises behind an answered byte whose fall was
missed; and none does if falls are not hidden, whatever else the host calls. -/
theorem counter_le_nine (calls : List Call) :
    ((∀ k, (blank.run (calls.take k)).regs.counter ≤ 9) ↔
      Along InTime blank calls)
      ∧ (Along FallSeen blank calls →
        ∀ k, (blank.run (calls.take k)).regs.counter ≤ 9) := by
  have hiff := counter_run_le_iff (e := blank) (Nat.zero_le 9) calls
  exact ⟨hiff, fun hseen => hiff.2 (inTime_of_fallSeen (by decide) hseen)⟩

/-- A byte written to the known board with the smallest part, with the part
changed for another one in the clock of the answer: the counter is at nine. -/
theorem counter_le_nine_sega :
    let m := Board.database[0].mapper
    let calls : List Call := .select (some 0)
      :: ([m.put true false] ++ m.bytes [0x80]
        ++ m.clocks (bits 0x5A)).map .write
      ++ [.write (m.put true true), .select (some 1)]
    (blank.run calls).regs.counter = 9
      ∧ (blank.run calls).regs.counter ≤ 9 := by
  intro m calls
  obtain ⟨-, hseen⟩ := counter_le_nine calls
  refine ⟨by decide +kernel, ?_⟩
  have hall := hseen (by decide +kernel) calls.length
  rwa [List.take_length] at hall

-- =========================================================== without bound

/-- The first known board with a part of one byte, which has no address to
speak of. -/
def deaf : Mapper :=
  { Board.database[0].mapper with chip := ⟨"one byte", 0, 0, .single⟩ }

/-- A clock whose fall is hidden from the part behind the other one. -/
def hiddenFall : List Call :=
  [.selectMapper deaf, .write (deaf.put false true), .select (some 0),
    .write (deaf.put true true)]

/-- Either condition is broken by one call: a snapshot with an answered byte and
a low clock, or a fall under the part of one byte. -/
theorem unseen_fall_overruns :
    let m := Board.database[0].mapper
    let r : Registers := { phase := .writeData, counter := 9 }
    let answered : List Call := .select (some 0)
      :: ([m.put true false] ++ m.bytes [0x80]
        ++ m.clocks (bits 0x5A)).map .write
      ++ [.write (m.put true true)]
    (blank.run [.select (some 0), .restore { r with
          scl := false, sclBefore := false },
        .write (m.put true true)]).regs.counter = 10
      ∧ (blank.run (answered ++ hiddenFall)).regs.counter = 10 := by
  decide +kernel

private theorem oneByte_deaf : deaf.OneByte :=
  ⟨rfl, by decide, by decide, by decide, by decide⟩

private theorem oneByte_sega : Board.database[0].mapper.OneByte :=
  ⟨rfl, by decide, by decide, by decide, by decide⟩

/-- A part without an address takes the levels and does not react. -/
theorem write_put_unheard {m : Mapper} (hw : m.OneByte)
    (hmask : m.chip.sizeMask = 0) (hm : e.mapper = some m) (scl sdaIn : Bool) :
    e.write (m.put scl sdaIn) = settle { e with
      regs := e.regs.driven scl sdaIn } := by
  rw [write_eq_writeLines hm, lines_put hw, writeLines_eq hm]
  exact if_pos hmask

/-- The counter goes up by one with each hidden fall. -/
theorem counter_hiddenFall (hanswered : e.regs.Answered) :
    (e.run hiddenFall).regs.Answered
      ∧ (e.run hiddenFall).regs.counter = e.regs.counter + 1 := by
  obtain ⟨hphase, hin, hcounter⟩ := hanswered
  let unset : Eeprom := { e with mapper := some deaf }
  let fallen : Eeprom := settle { unset with regs := e.regs.driven false true }
  let back : Eeprom := { fallen with mapper := some Board.database[0].mapper }
  have hunset : e.call (.selectMapper deaf) = unset :=
    congrArg (fun answer => answer.toOption.getD e)
      ((selectMapper_eq_ok (m := deaf)).2 ⟨by decide, rfl⟩)
  have hfallen : unset.call (.write (deaf.put false true)) = fallen :=
    write_put_unheard (e := unset) oneByte_deaf rfl rfl false true
  have hback : fallen.call (.select (some 0)) = back := rfl
  have hrun : e.run hiddenFall = back.write (deaf.put true true) := by
    unfold run hiddenFall
    simp only [List.foldl_cons, List.foldl_nil, hunset, hfallen, hback]
    rfl
  have hrise : back.write (deaf.put true true) = _ :=
    write_rise oneByte_sega (by decide) rfl rfl true
      (.byteIn hphase hin (Nat.le_of_succ_le hcounter))
  rw [hrun, hrise]
  exact ⟨⟨hphase, hin, Nat.le_succ_of_le hcounter⟩, rfl⟩

/-- So there is no bound: the counter outgrows any number, also the 255 of a
byte. -/
theorem counter_unbounded (n : Nat) :
    ∃ calls, n ≤ (blank.run calls).regs.counter := by
  suffices h : ∃ calls, (blank.run calls).regs.Answered
      ∧ n ≤ (blank.run calls).regs.counter by
    obtain ⟨calls, -, hn⟩ := h
    exact ⟨calls, hn⟩
  induction n with
  | zero =>
      let m := Board.database[0].mapper
      refine ⟨.select (some 0)
        :: ([m.put true false] ++ m.bytes [0x80]
          ++ m.clocks (bits 0x5A)).map .write
        ++ [.write (m.put true true)], ?_⟩
      decide +kernel
  | succ n ih =>
      obtain ⟨calls, hanswered, hn⟩ := ih
      obtain ⟨hanswered', hcounter⟩ := counter_hiddenFall hanswered
      have hrun : blank.run (calls ++ hiddenFall)
          = (blank.run calls).run hiddenFall :=
        List.foldl_append
      refine ⟨calls ++ hiddenFall, ?_⟩
      rw [hrun]
      exact ⟨hanswered', by omega⟩

end

end ConsoleBoard.Eeprom
