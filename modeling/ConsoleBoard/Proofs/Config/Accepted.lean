/-
What the check of a configuration asks for.

The check looks at one value after the other and reports the first fault, so
passing it is to have none of them (`validate_eq_ok_iff`).

# The tests

`Accepted` has a field for each test: what the cycles, the lines and the board
have to be, and what may be chained to a multitap. `fault?_eq_none_iff` takes
the chain of tests apart, and the check itself is that chain with its answer
turned into a result. Everything that is later said of a configuration that
has been read or built assumes `Accepted` and never opens the check again.
-/
import ConsoleBoard.Config.Build

namespace ConsoleBoard.Config

open Controller (Kind TeamPlayer)

/-- The values make a machine. -/
structure Accepted (c : Config) : Prop where
  cycles : c.cyclesPerLine ≠ 0
  lines : c.linesPerFrame ≠ 0
  frame : c.frame ≤ maxFrame
  board : ∀ index ∈ c.eepromType, index < Eeprom.Board.database.length
  ports : c.chained.length ≤ TeamPlayer.portCount
  flat : Kind.teamPlayer ∉ c.chained

/-- The part of the check that looks at the board. -/
theorem filter_board_eq_none_iff (board : Option Nat) :
    (board.filter fun index => decide (Eeprom.Board.database.length ≤ index))
      = none
      ↔ ∀ index ∈ board, index < Eeprom.Board.database.length := by
  cases board with
  | none => simp
  | some index => simp [Option.filter_some]

/-- No fault is found in just the accepted configurations. -/
private theorem fault?_eq_none_iff (c : Config) :
    c.fault? = none ↔ c.Accepted := by
  have hboard := filter_board_eq_none_iff c.eepromType
  constructor
  · -- each check in its order: the one that fails names the fault
    intro h
    unfold fault? at h
    split at h
    · cases h
    split at h
    · cases h
    split at h
    · cases h
    split at h
    · cases h
    split at h
    · cases h
    split at h
    · cases h
    rename_i hcycles hlines hframe _ hnone hports hflat
    exact ⟨hcycles, hlines, Nat.not_lt.1 hframe, hboard.1 hnone,
      Nat.not_lt.1 hports, hflat⟩
  · intro h
    unfold fault?
    rw [if_neg h.cycles, if_neg h.lines, if_neg (Nat.not_lt.2 h.frame),
      hboard.2 h.board]
    exact (if_neg (Nat.not_lt.2 h.ports)).trans (if_neg h.flat)

/-- Validation passes just the accepted configurations. -/
theorem validate_eq_ok_iff (c : Config) : c.validate = .ok () ↔ c.Accepted := by
  rw [← fault?_eq_none_iff]
  unfold validate
  cases c.fault? <;> simp

end ConsoleBoard.Config
