/-
What a part hears of the two lines.

A processor that works the lines in software writes them more often than they
change, and the data line moves while the clock is low for no better reason than
that the next bit is being set up. None of it is heard. The lines say
(`Levels.said`) the data level while the clock is high, and nothing else while
it is low; a part reacts when they say something new and at no other time.

One write is a comparison of rules: a rule looks at the data line in a rise of
the clock and nowhere else (`Reaction.withData`), so levels that say nothing can
be put in the place of others. A list of writes then comes to what it says with
the repetition left out (`heard_writes`), and two lists that say the same do the
same, whatever their lengths are.
-/
import ConsoleBoard.Proofs.Eeprom.Master
import Mathlib.Data.List.Destutter

namespace ConsoleBoard.Eeprom

-- ============================================================== the levels

/-- The levels of the clock and of the processor's data line. -/
structure Levels where
  scl : Bool
  sda : Bool
deriving DecidableEq

/-- What levels say: the data level in a high clock, or that the clock is
low. -/
def Levels.said (l : Levels) : Option Bool := if l.scl then some l.sda else none

def Registers.levels (r : Registers) : Levels := ⟨r.scl, r.sdaIn⟩

/-- The recorded levels are those of the last write, as they are behind every
write. -/
structure Registers.Settled (r : Registers) : Prop where
  scl : r.sclBefore = r.scl
  sdaIn : r.sdaInBefore = r.sdaIn

instance (r : Registers) : Decidable r.Settled :=
  decidable_of_iff (r.sclBefore = r.scl ∧ r.sdaInBefore = r.sdaIn)
    ⟨fun h => ⟨h.1, h.2⟩, fun h => ⟨h.1, h.2⟩⟩

/-- The levels behind a write. A line that it does not reach keeps its level. -/
def LineWrite.after (m : Mapper) (now : Levels) (w : LineWrite) : Levels :=
  ⟨(w.lines m).1.getD now.scl, (w.lines m).2.getD now.sda⟩

/-- What the lines say behind each write. -/
def said (m : Mapper) (now : Levels) : List LineWrite → List (Option Bool)
  | [] => []
  | w :: rest => (w.after m now).said :: said m (w.after m now) rest

/-- Two lists of writes say the same, repetition left out: their clocks have the
same edges, and the data line has the same levels, in the same order, in every
high clock. -/
def SayTheSame (m : Mapper) (now : Levels) (l l' : List LineWrite) : Prop :=
  (now.said :: said m now l).destutter (· ≠ ·)
    = (now.said :: said m now l').destutter (· ≠ ·)

instance (m : Mapper) (now : Levels) (l l' : List LineWrite) :
    Decidable (SayTheSame m now l l') :=
  inferInstanceAs (Decidable (_ = _))

/-- What a processor samples in a high clock: the level that it drives itself,
and the level that the data line has. -/
def sample (e : Eeprom) : Option (Bool × Bool) :=
  if e.regs.scl then some (e.regs.sdaIn, e.regs.sda) else none

/-- The sample behind each write. -/
def samples (e : Eeprom) : List LineWrite → List (Option (Bool × Bool))
  | [] => []
  | w :: rest => (e.write w).sample :: samples (e.write w) rest

-- ======================================================= what is not heard

/-- A part with other levels on record for the data line. -/
def withData (e : Eeprom) (sdaIn sdaInBefore sdaOutBefore : Bool) : Eeprom :=
  { e with regs := { e.regs with sdaIn, sdaInBefore, sdaOutBefore } }

/-- A part with the data line high on record while the clock is low. -/
def heard (e : Eeprom) : Eeprom :=
  let level := e.regs.sdaIn || !e.regs.scl
  e.withData level level true

section

variable {m : Mapper} {e : Eeprom}

/-- The rules look at the data line in a rise of the clock, and nowhere else. -/
theorem Reaction.withData {chip : Chip} {event : Event} {access : Option Access}
    {e' : Eeprom} (h : Reaction chip e event access e')
    (sdaIn sdaInBefore sdaOutBefore : Bool)
    (hrise : event = .rise → sdaIn = e.regs.sdaIn) :
    Reaction chip (e.withData sdaIn sdaInBefore sdaOutBefore) event access
      (e'.withData sdaIn sdaInBefore sdaOutBefore) := by
  cases h with
  | stop => exact .stop
  | start hsingle => exact .start hsingle
  | startOther hother => exact .startOther hother
  | quiet => exact .quiet
  | riseStandby hphase => exact .riseStandby hphase
  | fallStandby hphase => exact .fallStandby hphase
  | fallIn hphase hin => exact .fallIn hphase hin
  | bitOut hphase hout hcounter => exact .bitOut hphase hout hcounter
  | releaseOut hphase hout hcounter => exact .releaseOut hphase hout hcounter
  | fallOut hphase hout hcounter => exact .fallOut hphase hout hcounter
  -- in a rise the level is the one that the part has seen
  | bitIn hphase hin hcounter =>
      obtain rfl := hrise rfl
      exact .bitIn hphase hin hcounter
  | addressRead hphase hin hcounter hread =>
      exact .addressRead hphase hin hcounter hread
  | addressWrite hphase hin hcounter hwrite =>
      exact .addressWrite hphase hin hcounter hwrite
  | byteIn hphase hin hcounter => exact .byteIn hphase hin hcounter
  | strayIn hphase haddress hdata hin hcounter =>
      exact .strayIn hphase haddress hdata hin hcounter
  | nextOut hphase hout hcounter hlow =>
      obtain rfl := hrise rfl
      exact .nextOut hphase hout hcounter hlow
  | strayOut hphase hread hout hcounter hlow =>
      obtain rfl := hrise rfl
      exact .strayOut hphase hread hout hcounter hlow
  | riseOut hphase hout hheld =>
      obtain rfl := hrise rfl
      exact .riseOut hphase hout hheld

/-- The event that lines make which have said one thing and now say another. -/
def Event.between : Option Bool → Option Bool → Event
  | none, none => .quiet
  | none, some _ => .rise
  | some _, none => .fall
  | some true, some false => .start
  | some false, some true => .stop
  | some _, some _ => .quiet

theorem Event.between_self (s : Option Bool) : Event.between s s = .quiet := by
  rcases s with _ | _ | _ <;> rfl

/-- On settled lines the event is what lies between the two levels. -/
private theorem event_driven (h : e.regs.Settled) (l : Levels) :
    (e.regs.driven l.scl l.sda).event
      = Event.between e.regs.levels.said l.said := by
  obtain ⟨hscl, hsda⟩ := h
  obtain ⟨scl, sda⟩ := l
  unfold Registers.event Registers.driven Registers.levels Levels.said
  rw [hscl, hsda]
  cases e.regs.scl <;> cases scl <;> cases e.regs.sdaIn <;> cases sda <;> rfl

-- =============================================================== one write

/-- A write misses the lines, which keep their levels, or puts new ones on
them. -/
theorem write_cases (hm : e.mapper = some m) (h : e.regs.Settled)
    (w : LineWrite) :
    e.write w = e ∧ w.after m e.regs.levels = e.regs.levels
      ∨ e.write w
          = e.writeLevels (w.after m e.regs.levels).scl
            (w.after m e.regs.levels).sda := by
  rw [write_eq_writeLines hm]
  unfold writeLines LineWrite.after Registers.levels
  rw [h.scl, h.sdaIn]
  rcases w.lines m with ⟨_ | scl, _ | sda⟩
  · exact .inl ⟨rfl, rfl⟩
  all_goals exact .inr rfl

/-- New levels that say nothing new are recorded, and that is all. -/
theorem writeLevels_same (hm : e.mapper = some m) (h : e.regs.Settled)
    {l : Levels} (hsame : l.said = e.regs.levels.said) :
    e.writeLevels l.scl l.sda = e.withData l.sda l.sda e.regs.sdaOut := by
  have hscl : l.scl = e.regs.scl := by
    have hedge := congrArg Option.isSome hsame
    unfold Levels.said Registers.levels at hedge
    cases hl : l.scl <;> cases he : e.regs.scl <;> simp_all
  have hquiet : (e.regs.driven l.scl l.sda).event = .quiet := by
    rw [event_driven h, hsame, Event.between_self]
  have hrecorded : settle { e with regs := e.regs.driven l.scl l.sda }
      = e.withData l.sda l.sda e.regs.sdaOut := by
    unfold settle Registers.driven withData
    dsimp only
    rw [hscl, ← h.scl]
  rw [writeLevels_eq hm, hquiet, ← hrecorded]
  split <;> rfl

/-- Settling hides a data line that the clock does not show. -/
private theorem settle_withData {b : Bool}
    (hsame : e.regs.scl = true → b = e.regs.sdaIn) (before out : Bool) :
    (e.withData b before out).settle.heard = e.settle.heard := by
  unfold settle heard withData
  dsimp only
  cases hscl : e.regs.scl with
  | false => simp only [Bool.not_false, Bool.or_true]
  | true => rw [hsame hscl]

/-- What is heard hides a data line that the clock does not show. -/
private theorem heard_withData {b : Bool}
    (hsame : e.regs.scl = true → b = e.regs.sdaIn) (out : Bool) :
    (e.withData b b out).heard = e.heard := by
  unfold heard withData
  dsimp only
  cases hscl : e.regs.scl with
  | false => simp only [Bool.not_false, Bool.or_true]
  | true => rw [hsame hscl]

/-- What a part becomes when the lines say something new. -/
def hear (e : Eeprom) : Option Bool → Eeprom
  | some level => (e.writeLevels true level).heard
  | none => (e.writeLevels false true).heard

/-- What is heard says the same on the lines. -/
private theorem said_heard (e : Eeprom) :
    e.heard.regs.levels.said = e.regs.levels.said := by
  unfold heard withData Registers.levels Levels.said
  dsimp only
  cases e.regs.scl with
  | false => rfl
  | true => rw [Bool.not_true, Bool.or_false]

/-- Hearing a level is hearing the write that drives it. -/
private theorem hear_said (l : Levels) :
    e.hear l.said = (e.writeLevels l.scl (l.sda || !l.scl)).heard := by
  obtain ⟨scl, sda⟩ := l
  cases scl with
  | false => rw [Bool.not_false, Bool.or_true]; rfl
  | true => rw [Bool.not_true, Bool.or_false]; rfl

/-- What the part does with new levels is settled by what they say, and by what
it has heard before. -/
theorem heard_writeLevels (hm : e.mapper = some m) (h : e.regs.Settled)
    (l : Levels) :
    (e.writeLevels l.scl l.sda).heard = e.heard.hear l.said := by
  have hsettled : e.heard.regs.Settled := ⟨h.scl, rfl⟩
  let level := l.sda || !l.scl
  have hlevel : l.scl = true → level = l.sda := by
    intro hscl
    show (l.sda || !l.scl) = l.sda
    rw [hscl, Bool.not_true, Bool.or_false]
  have hsaid : (⟨l.scl, level⟩ : Levels).said = l.said := by
    unfold Levels.said
    dsimp only
    split
    case isTrue hscl => rw [hlevel hscl]
    case isFalse => rfl
  have hevent : (e.regs.driven l.scl l.sda).event
      = (e.heard.regs.driven l.scl level).event := by
    rw [event_driven h, event_driven hsettled ⟨l.scl, level⟩, said_heard, hsaid]
  rw [hear_said, writeLevels_eq hm, writeLevels_eq (e := e.heard) hm, ← hevent]
  -- the levels in the place of others are those that the record keeps
  let seen : Eeprom := { e with regs := e.regs.driven l.scl l.sda }
  let before := e.regs.sdaIn || !e.regs.scl
  show (if m.chip.sizeMask = 0 then seen.settle
      else (react m.chip seen seen.regs.event).settle).heard
    = (if m.chip.sizeMask = 0
      then (seen.withData level before e.regs.sdaOut).settle
      else (react m.chip (seen.withData level before e.regs.sdaOut)
        seen.regs.event).settle).heard
  by_cases hmask : m.chip.sizeMask = 0
  · rw [if_pos hmask, if_pos hmask]
    exact (settle_withData hlevel before e.regs.sdaOut).symm
  · rw [if_neg hmask, if_neg hmask]
    have hrule := reaction_react m.chip seen seen.regs.event
    have hlines := hrule.lines_eq
    have hrise : seen.regs.event = .rise → level = seen.regs.sdaIn := by
      intro hrise
      refine hlevel ?_
      by_contra hlow
      have hnone : l.said = none := if_neg hlow
      rw [show seen.regs.event = _ from event_driven h l, hnone] at hrise
      cases hbefore : e.regs.levels.said with
      | none => rw [hbefore] at hrise; cases hrise
      | some level => rw [hbefore] at hrise; cases hrise
    rw [(hrule.withData level before e.regs.sdaOut hrise).eq_react]
    refine (settle_withData (fun hscl => ?_) before e.regs.sdaOut).symm
    rw [hlines.1] at hscl
    rw [hlines.2]
    exact hlevel hscl

/-- Behind a write the part has heard what the lines say, if that is new. -/
theorem heard_write (hm : e.mapper = some m) (h : e.regs.Settled)
    (w : LineWrite) :
    let now := w.after m e.regs.levels
    (e.write w).heard
      = if now.said = e.regs.levels.said then e.heard
        else e.heard.hear now.said := by
  intro now
  rcases write_cases hm h w with ⟨hmissed, hkept⟩ | hput
  · rw [hmissed, if_pos (congrArg Levels.said hkept)]
  · rw [hput]
    by_cases hsame : now.said = e.regs.levels.said
    · rw [if_pos hsame, writeLevels_same hm h hsame]
      refine heard_withData (fun hscl => ?_) e.regs.sdaOut
      unfold Levels.said Registers.levels at hsame
      rw [hscl, if_pos rfl] at hsame
      split at hsame
      case isTrue => exact Option.some.inj hsame
      case isFalse => cases hsame
    · rw [if_neg hsame, heard_writeLevels hm h]

private theorem settled_write (hm : e.mapper = some m) (h : e.regs.Settled)
    (w : LineWrite) :
    (e.write w).regs.Settled := by
  rcases write_cases hm h w with ⟨hmissed, -⟩ | hput
  · rw [hmissed]
    exact h
  · rw [hput, writeLevels_eq hm]
    split <;> exact ⟨rfl, rfl⟩

/-- A write leaves the levels that it drives. -/
private theorem levels_write (hm : e.mapper = some m) (h : e.regs.Settled)
    (w : LineWrite) :
    (e.write w).regs.levels = w.after m e.regs.levels := by
  rcases write_cases hm h w with ⟨hmissed, hkept⟩ | hput
  · rw [hmissed, hkept]
  · rw [hput, writeLevels_eq hm]
    split
    · rfl
    · obtain ⟨hscl, hsda⟩ := (reaction_react m.chip
        { e with regs := e.regs.driven _ _ } (e.regs.driven _ _).event).lines_eq
      exact congrArg₂ Levels.mk hscl hsda

/-- A write that keeps both levels, or keeps the clock low, is recorded and not
heard. -/
theorem write_unheard (hm : e.mapper = some m) (h : e.regs.Settled)
    {w : LineWrite} {now : Levels} (hnow : w.after m e.regs.levels = now)
    (hkept : now = e.regs.levels ∨ e.regs.scl = false ∧ now.scl = false) :
    ∃ sdaOutBefore, e.write w = e.withData now.sda now.sda sdaOutBefore := by
  have hsame : now.said = e.regs.levels.said := by
    rcases hkept with hkept | ⟨hbefore, hlow⟩
    · rw [hkept]
    · unfold Levels.said Registers.levels
      rw [hbefore, hlow]
      rfl
  rcases write_cases hm h w with ⟨hmissed, hkept⟩ | hput
  · refine ⟨e.regs.sdaOutBefore, ?_⟩
    have hsda : now.sda = e.regs.sdaIn :=
      congrArg Levels.sda (hnow.symm.trans hkept)
    rw [hmissed, hsda]
    exact congrArg
      (fun before => e.withData e.regs.sdaIn before e.regs.sdaOutBefore) h.sdaIn
  · rw [hnow] at hput
    exact ⟨e.regs.sdaOut, hput.trans (writeLevels_same hm h hsame)⟩

-- ========================================================= lists of writes

/-- A list from which repetition is left out begins as it did. -/
private theorem destutter'_eq_cons {α : Type} [DecidableEq α] (a : α)
    (l : List α) :
    ∃ t, l.destutter' (· ≠ ·) a = a :: t := by
  induction l generalizing a with
  | nil => exact ⟨[], rfl⟩
  | cons b l ih =>
      by_cases h : a ≠ b
      · exact ⟨_, List.destutter'_cons_pos _ h⟩
      · rw [List.destutter'_cons_neg _ h]
        exact ih a

/-- What the lines say anew. -/
def news (m : Mapper) (now : Levels) (l : List LineWrite) :
    List (Option Bool) :=
  ((now.said :: said m now l).destutter (· ≠ ·)).tail

/-- A write is news if the levels say something else behind it. -/
private theorem news_cons (now : Levels) (w : LineWrite)
    (rest : List LineWrite) :
    news m now (w :: rest) =
      if (w.after m now).said = now.said then news m (w.after m now) rest
      else (w.after m now).said :: news m (w.after m now) rest := by
  unfold news
  rw [List.destutter_cons', List.destutter_cons', said]
  obtain ⟨t, ht⟩ :=
    destutter'_eq_cons (w.after m now).said (said m (w.after m now) rest)
  by_cases hsame : (w.after m now).said = now.said
  · rw [if_pos hsame, List.destutter'_cons_neg _ (not_not.2 hsame.symm), hsame]
  · rw [if_neg hsame, List.destutter'_cons_pos _ (Ne.symm hsame), ht]
    rfl

private theorem sample_heard (e : Eeprom) : e.heard.sample = e.sample := by
  unfold sample heard withData
  dsimp only
  cases hscl : e.regs.scl with
  | false => rfl
  | true => simp [Registers.sda]

/-- A sample shows what the lines say. -/
theorem said_of_sample {e e' : Eeprom} (h : e.sample = e'.sample) :
    e.regs.levels.said = e'.regs.levels.said := by
  have hsaid : ∀ e : Eeprom, e.regs.levels.said = e.sample.map Prod.fst := by
    intro e
    unfold Registers.levels Levels.said sample
    dsimp only
    split <;> rfl
  rw [hsaid, hsaid, h]

/-- A list of writes comes to what it says anew: the part hears that, and shows
a new sample for each of it. -/
theorem heard_writes (hm : e.mapper = some m) (h : e.regs.Settled)
    (l : List LineWrite) :
    (e.writes l).heard = (news m e.regs.levels l).foldl hear e.heard
      ∧ (e.sample :: samples e l).destutter (· ≠ ·)
          = ((news m e.regs.levels l).scanl hear e.heard).map sample := by
  -- over the writes; `hear` and `destutter` take the same head or drop it
  induction l generalizing e with
  | nil =>
      refine ⟨rfl, ?_⟩
      show [e.sample] = [e.heard.sample]
      rw [sample_heard]
  | cons w rest ih =>
      obtain ⟨hheard, hsamples⟩ :=
        ih ((mapper_write e w).trans hm) (settled_write hm h w)
      rw [levels_write hm h w] at hheard hsamples
      have hwrite := heard_write hm h w
      rw [List.destutter_cons'] at hsamples ⊢
      rw [news_cons, samples]
      by_cases hsame : (w.after m e.regs.levels).said = e.regs.levels.said
      · -- nothing new: the part and its sample are as before
        dsimp only at hwrite
        rw [if_pos hsame] at hwrite
        have hsample : (e.write w).sample = e.sample := by
          rw [← sample_heard, hwrite, sample_heard]
        rw [hwrite] at hheard hsamples
        rw [if_pos hsame, List.destutter'_cons_neg _ (not_not.2 hsample.symm),
          ← hsample]
        exact ⟨hheard, hsamples⟩
      · dsimp only at hwrite
        rw [if_neg hsame] at hwrite
        have hsample : e.sample ≠ (e.write w).sample := by
          intro hequal
          refine hsame ?_
          rw [said_of_sample hequal, levels_write hm h w]
        rw [hwrite] at hheard hsamples
        rw [if_neg hsame, List.destutter'_cons_pos _ hsample, hsamples,
          List.scanl_cons, List.map_cons, sample_heard]
        exact ⟨hheard, rfl⟩

/-- A part reacts to the edges of the clock, and to those of the data line in a
high clock. A write that keeps both levels, or keeps the clock low, changes
nothing but the record of the levels; and two lists of writes that say the same
lead from the same part to the same storage and protocol state, and show the
same on the data line in every high clock. -/
theorem only_edges_heard (hm : e.mapper = some m) (h : e.regs.Settled) :
    (∀ w : LineWrite, let now := w.after m e.regs.levels
      now = e.regs.levels ∨ e.regs.scl = false ∧ now.scl = false →
        ∃ sdaOutBefore, e.write w = e.withData now.sda now.sda sdaOutBefore)
      ∧ ∀ l l', SayTheSame m e.regs.levels l l' →
          let a := e.writes l
          let b := e.writes l'
          a.storage = b.storage ∧ a.regs.phase = b.regs.phase
            ∧ a.regs.address = b.regs.address ∧ a.regs.counter = b.regs.counter
            ∧ a.regs.buffer = b.regs.buffer ∧ a.regs.dirty = b.regs.dirty
            ∧ (e.sample :: samples e l).destutter (· ≠ ·)
                = (e.sample :: samples e l').destutter (· ≠ ·) := by
  constructor
  · intro w now hkept
    exact write_unheard hm h rfl hkept
  · intro l l' hsame a b
    have hnews : news m e.regs.levels l = news m e.regs.levels l' :=
      congrArg List.tail hsame
    obtain ⟨hheard, hsamples⟩ := heard_writes hm h l
    obtain ⟨hheard', hsamples'⟩ := heard_writes hm h l'
    -- what was heard is all that the registers show, but for the data line
    have hpart : a.heard = b.heard := by rw [hheard, hheard', hnews]
    refine ⟨congrArg (·.storage) hpart, congrArg (·.regs.phase) hpart,
      congrArg (·.regs.address) hpart, congrArg (·.regs.counter) hpart,
      congrArg (·.regs.buffer) hpart, congrArg (·.regs.dirty) hpart, ?_⟩
    rw [hsamples, hsamples', hnews]

/-- A byte clocked out cleanly, and once more with every write made twice and
the data line moving in each low clock. -/
theorem only_edges_heard_twice :
    let m := Board.database[0].mapper
    let e : Eeprom := ⟨some m, erased, {}⟩
    let glitch := [m.put false true, m.put false false]
    let clean := [m.put true false] ++ m.bytes [0x80, 0x5A]
    let untidy := clean.flatMap fun w =>
      if (w.after m ⟨true, true⟩).scl then [w, w] else [w] ++ glitch ++ [w]
    e.regs.Settled ∧ clean.length < untidy.length
      ∧ (e.writes clean).storage = (e.writes untidy).storage
      ∧ (e.writes untidy).stored 0x40 = 0x5A := by
  intro m e glitch clean untidy
  have hsettled : e.regs.Settled := ⟨rfl, rfl⟩
  obtain ⟨-, hsame⟩ := only_edges_heard (e := e) (m := m) rfl hsettled
  obtain ⟨hstorage, -⟩ := hsame clean untidy (by decide +kernel)
  exact ⟨hsettled, by decide +kernel, hstorage, by decide +kernel⟩

end

end ConsoleBoard.Eeprom
