/-
A read whose last byte is not acknowledged.

Once the eight bits of a byte are out, the part lets the data line go and
waits (`Waiting`). A rise of the clock with the line high leaves it waiting:
there is no record of the refusal, so the part would still take a later rise
with the line low for the acknowledgement. What holds is therefore this.
Between the conditions the part stays as it is for as long as the line is
high whenever the clock rises (`Held`), and it loads a byte as soon as it is
not.

# Two steps

Before the answer the part is `Orderly`: it sends in a read and nowhere else.
Behind the eighth bit it is `Waiting`. Each is kept by single writes and then
by lists of them, and the result is an equivalence: no byte is loaded exactly
as long as the line is held high at each rise.
-/
import ConsoleBoard.Proofs.Eeprom.Master

namespace ConsoleBoard.Eeprom

-- ========================================================= lists of writes

/-- The accesses that writes make, in order. -/
def accesses (e : Eeprom) : List LineWrite → List Access
  | [] => []
  | w :: rest => (e.access? w).toList ++ accesses (e.write w) rest

/-- No write of a list is a start or a stop condition. -/
def NoCondition (e : Eeprom) : List LineWrite → Prop
  | [] => True
  | w :: rest =>
      e.event w ≠ .start ∧ e.event w ≠ .stop ∧ NoCondition (e.write w) rest

/-- The processor holds the data line high whenever a write of a list raises
the clock. -/
def Held (e : Eeprom) : List LineWrite → Prop
  | [] => True
  | w :: rest => (e.event w = .rise → (e.write w).regs.sdaIn = true)
      ∧ Held (e.write w) rest

instance NoCondition.decidable (e : Eeprom) :
    (list : List LineWrite) → Decidable (NoCondition e list)
  | [] => .isTrue trivial
  | w :: rest =>
    have : Decidable (NoCondition (e.write w) rest) :=
      NoCondition.decidable (e.write w) rest
    inferInstanceAs (Decidable (_ ∧ _ ∧ NoCondition (e.write w) rest))

instance Held.decidable (e : Eeprom) :
    (list : List LineWrite) → Decidable (Held e list)
  | [] => .isTrue trivial
  | w :: rest =>
    have : Decidable (Held (e.write w) rest) := Held.decidable (e.write w) rest
    inferInstanceAs (Decidable (_ ∧ Held (e.write w) rest))

section

variable {m : Mapper} {e e' : Eeprom} {w : LineWrite} {access : Option Access}

-- ==================================================== what leads to a read

/-- What writes keep of a part with single-byte addressing: it sends in a
read and nowhere else, and lets the line go behind a byte. -/
structure Orderly (m : Mapper) (e : Eeprom) : Prop where
  mapper : e.mapper = some m
  heard : e.regs.phase ≠ .standby → m.chip.sizeMask ≠ 0
  sending : e.regs.phase = .readData → e.regs.shiftOut = true
  released : e.regs.shiftOut = true → 9 ≤ e.regs.counter → e.regs.sdaOut = true

/-- A reaction keeps the part orderly. -/
theorem Orderly.reaction {event : Event} (hsingle : m.chip.addressing = .single)
    (hmask : m.chip.sizeMask ≠ 0) (h : Orderly m e)
    (hrule : Reaction m.chip e event access e') :
    Orderly m e' := by
  refine ⟨hrule.mapper_eq.trans h.mapper, fun _ => hmask, ?_, ?_⟩
  · cases hrule with
    | startOther hother => exact absurd hsingle hother
    | byteIn hphase hin hcounter =>
        exact fun hread => by cases hphase.symm.trans hread
    | stop | start _ | strayIn _ _ _ _ _ | strayOut _ _ _ _ _ => exact nofun
    | addressRead _ _ _ _ => exact fun _ => rfl
    | addressWrite _ _ _ _ => exact nofun
    | _ => exact h.sending
  · cases hrule with
    | stop | start _ | startOther _ | strayIn _ _ _ _ _ | strayOut _ _ _ _ _ =>
        exact nofun
    | addressWrite _ _ _ _ => exact nofun
    | addressRead _ _ _ _ | nextOut _ _ _ _ => exact fun _ => nofun
    | bitIn hphase hin hcounter | byteIn hphase hin hcounter =>
        exact fun hout => by cases hin.symm.trans hout
    | fallIn _ _ | releaseOut _ _ _ => exact fun _ _ => rfl
    | bitOut hphase hout hcounter =>
        refine fun _ hfull => ?_
        have hmore : 9 ≤ e.regs.counter + 1 := hfull
        omega
    | _ => exact h.released

theorem Orderly.written (hsingle : m.chip.addressing = .single)
    (h : Orderly m e) (hwritten : Written e w access e') : Orderly m e' := by
  refine hwritten.keeps
    (fun _ _ h => ⟨h.mapper, h.heard, h.sending, h.released⟩)
    (fun h => ⟨h.mapper, h.heard, h.sending, h.released⟩)
      (fun h hm hmask hrule => ?_) h
  obtain rfl := Option.some.inj (h.mapper.symm.trans hm)
  exact h.reaction hsingle hmask hrule

theorem Orderly.writes (hsingle : m.chip.addressing = .single) (h : Orderly m e)
    (list : List LineWrite) : Orderly m (e.writes list) := by
  induction list generalizing e with
  | nil => exact h
  | cons w rest ih => exact ih (h.written hsingle (written_write e w))

-- ================================================== waiting for the answer

/-- The eight bits of a byte are out, and the line is let go. -/
structure Waiting (m : Mapper) (e : Eeprom) : Prop where
  mapper : e.mapper = some m
  heard : m.chip.sizeMask ≠ 0
  phase : e.regs.phase = .readData
  sending : e.regs.shiftOut = true
  counter : e.regs.counter = 9
  released : e.regs.sdaOut = true

/-- Between the conditions nothing moves a part that waits but a rise of the
clock with the line low, for which it loads a byte. -/
theorem Waiting.reaction {event : Event} (h : Waiting m e)
    (hrule : Reaction m.chip e event access e') (hstart : event ≠ .start)
    (hstop : event ≠ .stop) :
    event = .rise ∧ e.regs.sdaIn = false ∧ access ≠ none
      ∨ (event = .rise → e.regs.sdaIn = true) ∧ access = none ∧ e' = e := by
  -- the part does not pull the line, so its level is the processor's
  have hsda : e.regs.sda = e.regs.sdaIn := by
    rw [Registers.sda, h.released, Bool.and_true]
  have hphase := h.phase
  have hsending := h.sending
  have hcounter := h.counter
  cases hrule with
  | stop => exact absurd rfl hstop
  | start _ | startOther _ => exact absurd rfl hstart
  | quiet => exact .inr ⟨by simp, rfl, rfl⟩
  | fallOut _ _ _ => exact .inr ⟨by simp, rfl, rfl⟩
  | nextOut _ _ _ hlow => exact .inl ⟨rfl, hsda ▸ hlow, by simp⟩
  | riseOut _ _ hheld =>
      refine .inr ⟨fun _ => ?_, rfl, rfl⟩
      rw [← hsda]
      by_contra hlow
      exact hheld ⟨Nat.le_of_eq hcounter.symm, Bool.eq_false_iff.2 hlow⟩
  | riseStandby hother | fallStandby hother | addressRead hother _ _ _
  | addressWrite hother _ _ _ | byteIn hother _ _ =>
      cases hphase.symm.trans hother
  | bitIn _ hin _ | strayIn _ _ _ hin _ | fallIn _ hin =>
      cases hsending.symm.trans hin
  | strayOut _ hread _ _ _ => exact absurd hphase hread
  | bitOut _ _ hfew => omega
  | releaseOut _ _ hlast => omega

/-- What a write on the lines does to a part that waits for the answer. -/
theorem Waiting.written (h : Waiting m e) (hwritten : Written e w access e')
    (hstart : e.event w ≠ .start) (hstop : e.event w ≠ .stop) :
    e.event w = .rise ∧ e'.regs.sdaIn = false ∧ access ≠ none
      ∨ (e.event w = .rise → e'.regs.sdaIn = true) ∧ access = none
        ∧ Waiting m e'
        ∧ e'.regs.address = e.regs.address := by
  cases hwritten with
  | missed hquiet =>
      exact .inr ⟨fun hrise => absurd (hquiet.symm.trans hrise) nofun,
        rfl, h, rfl⟩
  | unheard scl sdaIn hmask => exact absurd (hmask m h.mapper) h.heard
  | reacted scl sdaIn hm hmask hevent hrule =>
      obtain rfl := Option.some.inj (h.mapper.symm.trans hm)
      have hdriven : Waiting m { e with regs := e.regs.driven scl sdaIn } :=
        ⟨h.mapper, h.heard, h.phase, h.sending, h.counter, h.released⟩
      rcases hdriven.reaction hrule hstart hstop with ⟨hrise, hlow,
        hload⟩ | ⟨hhigh, hnone, rfl⟩
      · exact .inl ⟨hrise, hrule.lines_eq.2.trans hlow, hload⟩
      · exact .inr ⟨hhigh, hnone,
          ⟨h.mapper, h.heard, h.phase, h.sending, h.counter, h.released⟩, rfl⟩

/-- Without a condition on the lines, the part waits until the answer comes. -/
theorem Waiting.writes (h : Waiting m e) {list : List LineWrite}
    (hlist : NoCondition e list) :
    (accesses e list = [] ↔ Held e list)
      ∧ (Held e list →
          Waiting m (e.writes list)
            ∧ (e.writes list).regs.address = e.regs.address) := by
  induction list generalizing e with
  | nil => exact ⟨iff_of_true rfl trivial, fun _ => ⟨h, rfl⟩⟩
  | cons w rest ih =>
      obtain ⟨hstart, hstop, hrest⟩ := hlist
      rcases h.written (written_write e w) hstart hstop with
        ⟨hrise, hlow, hload⟩ | ⟨hhigh, hnone, hwaiting, haddress⟩
      · have hnot : ¬Held e (w :: rest) :=
          fun hheld => by cases hlow.symm.trans (hheld.1 hrise)
        refine ⟨iff_of_false (fun hempty => ?_) hnot,
          fun hheld => absurd hheld hnot⟩
        exact hload (Option.toList_eq_nil_iff.1
          (List.append_eq_nil_iff.1 hempty).1)
      · obtain ⟨haccesses, hkept⟩ := ih hwaiting hrest
        constructor
        · rw [accesses, hnone, Option.toList_none, List.nil_append, haccesses]
          exact ⟨fun hheld => ⟨hhigh, hheld⟩, fun hheld => hheld.2⟩
        · intro hheld
          obtain ⟨hend, hsame⟩ := hkept hheld.2
          exact ⟨hend, hsame.trans haddress⟩

/-- A byte that the processor does not acknowledge ends the read: until the
next condition the line stays let go, the address stays, and no byte is
loaded, exactly as long as the data line is high whenever the clock rises. -/
theorem refused_read (hm : e.mapper = some m)
    (hsingle : m.chip.addressing = .single) (hregs : e.regs = {})
    (before : List LineWrite) (w : LineWrite) (after : List LineWrite)
    (hphase : (e.writes before).regs.phase = .readData)
    (hcounter : (e.writes before).regs.counter = 9)
    (hrise : (e.writes before).event w = .rise)
    (hrefused : ((e.writes before).write w).regs.sdaIn = true)
    (hafter : NoCondition ((e.writes before).write w) after) :
    let refused := (e.writes before).write w
    (accesses (e.writes before) (w :: after) = [] ↔ Held refused after)
      ∧ (Held refused after →
        (refused.writes after).regs.sdaOut = true
          ∧ (refused.writes after).regs.address = (e.writes before).regs.address
          ∧ (refused.writes after).regs.phase = .readData) := by
  have hstart : Orderly m e := by
    refine ⟨hm, ?_, ?_, ?_⟩ <;> rw [hregs] <;> simp
  have horderly := hstart.writes hsingle before
  have hsending := horderly.sending hphase
  have hwaiting : Waiting m (e.writes before) :=
    ⟨horderly.mapper, horderly.heard (by simp [hphase]), hphase,
      hsending, hcounter,
      horderly.released hsending (Nat.le_of_eq hcounter.symm)⟩
  -- the refused rise is the first write of a list that is held
  have hall : NoCondition (e.writes before) (w :: after) :=
    ⟨by simp [hrise], by simp [hrise], hafter⟩
  obtain ⟨haccesses, hkept⟩ := hwaiting.writes hall
  have hheld : Held (e.writes before) (w :: after) ↔
      Held ((e.writes before).write w) after :=
    ⟨fun hheld => hheld.2, fun hheld => ⟨fun _ => hrefused, hheld⟩⟩
  rw [hheld] at haccesses hkept
  refine ⟨haccesses, fun hheld => ?_⟩
  obtain ⟨hend, hsame⟩ := hkept hheld
  exact ⟨hend.released, hsame, hend.phase⟩

/-- Two more clocks with the line high behind a byte read from the address 3. -/
theorem refused_read_sega :
    let m := Board.database[0].mapper
    let refused := (writes ⟨some m, erased, {}⟩
      ([m.put true false] ++ m.bytes [0x07]
        ++ m.clocks (List.replicate 8 true))).write (m.put true true)
    let ended := refused.writes (m.put false true :: m.clocks [true, true])
    accesses refused (m.put false true :: m.clocks [true, true]) = []
      ∧ ended.regs.sdaOut = true ∧ ended.regs.address = 3
      ∧ ended.regs.phase = .readData := by
  intro m refused ended
  have hheld : Held refused (m.put false true :: m.clocks [true, true]) := by
    decide +kernel
  obtain ⟨haccesses, hkept⟩ :=
    refused_read (e := ⟨some m, erased, {}⟩) rfl rfl rfl
      ([m.put true false] ++ m.bytes [0x07] ++ m.clocks (List.replicate 8 true))
      (m.put true true) (m.put false true :: m.clocks [true, true])
        (by decide +kernel)
      (by decide +kernel) (by decide +kernel) (by decide +kernel)
        (by decide +kernel)
  obtain ⟨hreleased, haddress, hphase⟩ := hkept hheld
  have hempty := haccesses.2 hheld
  refine ⟨(List.append_eq_nil_iff.1 hempty).2, hreleased,
    haddress.trans ?_, hphase⟩
  decide +kernel

/-- The clock before a stop condition, with the line low, is taken for the
acknowledgement that was refused. -/
theorem lowClock_resumes :
    let m := Board.database[0].mapper
    let asked := writes ⟨some m, erased, {}⟩
      ([m.put true false] ++ m.bytes [0x07] ++ m.clocks (List.replicate 8 true))
    let refused := asked.write (m.put true true)
    let after := [m.put false true, m.put false false, m.put true false]
    asked.regs.phase = .readData ∧ asked.regs.counter = 9
      ∧ asked.event (m.put true true) = .rise ∧ refused.regs.sdaIn = true
      ∧ NoCondition refused after
      ∧ asked.regs.address = 3 ∧ (refused.writes after).regs.address = 4
      ∧ accesses refused after = [.load 4] := by
  decide +kernel

end

end ConsoleBoard.Eeprom
