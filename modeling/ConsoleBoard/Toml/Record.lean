/-
Reading records out of TOML values. A record is a table with the field names,
or an array with the fields in order; a table with another name is refused,
and what an array has beyond the fields is not looked at. An enumeration is
its name, or a table with the name as its only key and nothing under it.
-/
import ConsoleBoard.Toml.Basic

namespace ConsoleBoard.Toml

-- ================================================================= scalars

/-- A natural number up to a bound. -/
def upTo? (high : Nat) : Toml → Option Nat
  | .integer n => if 0 ≤ n ∧ n ≤ high then some n.toNat else none
  | _ => none

def word32? (v : Toml) : Option UInt32 := (upTo? 4294967295 v).map UInt32.ofNat

/-- A natural number of at most 64 bits. -/
def count? : Toml → Option Nat := upTo? 18446744073709551615

def list? {α : Type} (read : Toml → Option α) : Toml → Option (List α)
  | .array items => items.mapM read
  | _ => none

/-- The name that an enumeration value has. -/
def tag? : Toml → Option String
  | .text s => some s
  | .table [(name, .table [])] => some name
  | .table [(name, .array [])] => some name
  | _ => none

-- ================================================================= records

/-- The fields of a record, in the order of `names`, with nothing for those
that are missing. -/
def fields? (names : List String) : Toml → Option (List (Option Toml))
  | .array items =>
    let given := (items.take names.length).map some
    some (given ++ List.replicate (names.length - given.length) none)
  | .table entries =>
    if entries.all fun entry => names.contains entry.1 then
      some (names.map fun name => entries.lookup name)
    else none
  | _ => none

/-- Read a field that has a default. -/
def orElse {α : Type} (default : α) (read : Toml → Option α)
    (value : Option Toml) : Option α :=
  match value with
  | some v => read v
  | none => some default

end ConsoleBoard.Toml
