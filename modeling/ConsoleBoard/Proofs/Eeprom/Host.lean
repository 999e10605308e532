/-
A host that selects parts, writes the lines, resets and loads snapshots,
call after call in any order.

`called_call` says once what a call can do, refusals included: it selects an
accepted part, erases, writes the lines, loads registers, or does nothing.
A law of every run is a case analysis over these, and an induction over the
calls (`run_keeps`); where a law needs more of a call than that it is made,
the condition is laid along the run (`Along`).

# Every run

`Sound` is what any run keeps with no condition at all: an accepted part, or
none, and storage of the full size. Other laws are proved on top of it
(`run_keeps`, `run_always`), and say in their own terms which calls they need.
-/
import ConsoleBoard.Proofs.Eeprom.Part
import ConsoleBoard.Proofs.Eeprom.Write

namespace ConsoleBoard.Eeprom

-- =============================================================== the calls

/-- What a host may do. -/
inductive Call
  | select (index : Option Nat)
  | selectMapper (m : Mapper)
  | write (w : LineWrite)
  | reset
  | restore (r : Registers)
deriving DecidableEq

/-- The board that a call selects, unless it is refused. -/
def Call.selected? : Call → Option Mapper
  | select (some index) => Board.database[index]?.map Board.mapper
  | selectMapper m => if m.chip.Accepted then some m else none
  | _ => none

/-- Make a call. A refused selection changes nothing. -/
def call (e : Eeprom) : Call → Eeprom
  | .select index => (e.select index).toOption.getD e
  | .selectMapper m => (e.selectMapper m).toOption.getD e
  | .write w => e.write w
  | .reset => e.reset
  | .restore r => e.restore r

/-- Make calls one after the other. -/
def run (e : Eeprom) (calls : List Call) : Eeprom := calls.foldl call e

/-- The calls that select a board, and do not reset. -/
def Call.Selects : Call → Prop
  | select (some _) => True
  | selectMapper _ => True
  | _ => False

/-- What a call comes to. -/
inductive Called (e : Eeprom) : Call → Eeprom → Prop
  | refused {c : Call} (hselects : c.Selects)
      (hnone : c.selected? = none) : Called e c e
  | selected {c : Call} {m : Mapper} (hselects : c.Selects)
      (hsome : c.selected? = some m)
      (haccepted : m.chip.Accepted) : Called e c { e with mapper := some m }
  | erased {c : Call} (hc : c = .reset ∨ c = .select none) : Called e c e.reset
  | wrote (w : LineWrite) : Called e (.write w) (e.write w)
  | restored (r : Registers) : Called e (.restore r) (e.restore r)

/-- A call selects nothing but accepted parts. -/
theorem Call.selected?_accepted {c : Call} {m : Mapper}
    (h : c.selected? = some m) :
    m.chip.Accepted := by
  unfold Call.selected? at h
  split at h
  · obtain ⟨board, hboard, rfl⟩ := Option.map_eq_some_iff.1 h
    exact database_accepted board (List.mem_of_getElem? hboard)
  · split at h
    case isTrue haccepted => exact Option.some.inj h ▸ haccepted
    case isFalse => cases h
  · cases h

/-- A selection that answers as it should is refused or selects its board. -/
private theorem called_selection {e : Eeprom} {c : Call}
    {answer : Except Error Eeprom} (hcall : e.call c = answer.toOption.getD e)
    (hselects : c.Selects) (hok : ∀ e', answer = .ok e' ↔
      ∃ m, c.selected? = some m ∧ e' = { e with mapper := some m }) :
    Called e c (e.call c) := by
  rw [hcall]
  cases answer with
  | error err =>
      refine .refused hselects
        (Option.eq_none_iff_forall_ne_some.2 fun m hm => ?_)
      cases (hok _).2 ⟨m, hm, rfl⟩
  | ok e' =>
      obtain ⟨m, hm, rfl⟩ := (hok e').1 rfl
      exact .selected hselects hm (Call.selected?_accepted hm)

/-- What a call does is one of the cases of `Called`. -/
theorem called_call (e : Eeprom) (c : Call) : Called e c (e.call c) := by
  cases c with
  | write w => exact .wrote w
  | reset => exact .erased (.inl rfl)
  | restore r => exact .restored r
  | select index =>
      cases index with
      | none => exact .erased (.inr rfl)
      | some index =>
          refine called_selection rfl trivial fun e' => select_eq_ok.trans ?_
          simp only [Call.selected?, Option.map_eq_some_iff]
          exact ⟨fun ⟨board, h, h'⟩ => ⟨board.mapper, ⟨board, h, rfl⟩, h'⟩,
            fun ⟨_, ⟨board, h, rfl⟩, h'⟩ => ⟨board, h, h'⟩⟩
  | selectMapper m =>
      refine called_selection rfl trivial fun e' => selectMapper_eq_ok.trans ?_
      simp only [Call.selected?, Option.ite_none_right_eq_some,
        Option.some.injEq]
      exact ⟨fun h => ⟨m, ⟨h.1, rfl⟩, h.2⟩, fun ⟨_, ⟨h, rfl⟩, h'⟩ => ⟨h, h'⟩⟩

/-- A selection, refused or not, leaves the registers and the storage. -/
theorem Called.eq_of_selects {e e' : Eeprom} {c : Call} (h : Called e c e')
    (hc : c.Selects) :
    e'.regs = e.regs ∧ e'.storage = e.storage := by
  cases h with
  | refused hselects hnone => exact ⟨rfl, rfl⟩
  | selected hselects hsome haccepted => exact ⟨rfl, rfl⟩
  | erased hreset => rcases hreset with rfl | rfl <;> cases hc
  | wrote w => cases hc
  | restored r => cases hc

-- ================================================================ the runs

/-- Every call of a run meets a condition in the state in which it is made. -/
def Along (condition : Eeprom → Call → Prop) (e : Eeprom) : List Call → Prop
  | [] => True
  | c :: rest => condition e c ∧ Along condition (e.call c) rest

instance Along.decidable {condition : Eeprom → Call → Prop}
    [∀ e c, Decidable (condition e c)] (e : Eeprom) :
    (calls : List Call) → Decidable (Along condition e calls)
  | [] => .isTrue trivial
  | c :: rest =>
    have : Decidable (Along condition (e.call c) rest) :=
      Along.decidable (e.call c) rest
    inferInstanceAs
      (Decidable (condition e c ∧ Along condition (e.call c) rest))

/-- A law that a call keeps holds behind a run. -/
theorem run_keeps {law : Eeprom → Prop} {condition : Eeprom → Call → Prop}
    (hcall : ∀ {e c}, law e → condition e c → law (e.call c)) {e : Eeprom}
    (h : law e) {calls : List Call} (hcalls : Along condition e calls) :
    law (e.run calls) := by
  induction calls generalizing e with
  | nil => exact h
  | cons c rest ih => exact ih (hcall h hcalls.1) hcalls.2

/-- What every call keeps, every run keeps. -/
theorem run_always {law : Eeprom → Prop}
    (hcall : ∀ {e c}, law e → law (e.call c)) {e : Eeprom} (h : law e)
    (calls : List Call) : law (e.run calls) := by
  induction calls generalizing e with
  | nil => exact h
  | cons c rest ih => exact ih (hcall h)

-- ==================================================== what every run keeps

/-- The storage is of full size, and the part fits it. -/
structure Sound (e : Eeprom) : Prop where
  size : e.storage.size = storageSize
  accepted : ∀ m, e.mapper = some m → m.chip.Accepted

theorem sound_blank : Sound blank := ⟨Array.size_replicate, by simp [blank]⟩

/-- A call keeps the part sound. -/
theorem Sound.called {e e' : Eeprom} {c : Call} (h : Sound e)
    (hcalled : Called e c e') :
    Sound e' := by
  cases hcalled with
  | refused hselects hnone => exact h
  | selected hselects hsome haccepted =>
      refine ⟨h.size, fun m hm => ?_⟩
      rw [← Option.some.inj hm]
      exact haccepted
  | erased hc => exact ⟨Array.size_replicate, h.accepted⟩
  | restored r => exact ⟨h.size, h.accepted⟩
  | wrote w =>
      refine ⟨?_, fun m hm => h.accepted m ((mapper_write e w).symm.trans hm)⟩
      rw [storage_write, size_commit, h.size]

/-- Every run leaves the part sound. -/
theorem sound_run (calls : List Call) : Sound (blank.run calls) :=
  run_always (fun h => h.called (called_call _ _)) sound_blank calls

/-- The host is given the whole of the selected part. -/
theorem Sound.size_data {e : Eeprom} (h : Sound e) {m : Mapper}
    (hm : e.mapper = some m) :
    e.data.size = m.chip.size := by
  have hfits := (h.accepted m hm).fits
  have hbytes : e.size = m.chip.size := by
    unfold Eeprom.size
    rw [hm]
    exact Nat.min_eq_left hfits
  rw [data, hbytes, Array.take_eq_extract, Array.size_extract, h.size,
    Nat.min_eq_left hfits, Nat.sub_zero]

end ConsoleBoard.Eeprom
