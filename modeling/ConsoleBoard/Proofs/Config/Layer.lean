/-
What is relied on of the text layer.

# The two sides

The library that writes configurations and the one that reads them know the
record only by the names of its fields, and the kinds of controller only by
their names. A text denotes a TOML value as the format says (`Denotes`), and
the layer is held to two laws about that value (`TextLayer.Laws`). What is
written denotes the record field by field, with nothing for an absent board
(`Config.table`), as long as every number is one that TOML has. What is read
is a configuration that the value gives (`Given`): it has no other names,
and a field that is missing has its default.

# Where they meet

Neither law speaks of both directions, and the two describe a value in
different ways: the first by what is listed, the second by what is looked
up. `given_table` says that they agree: every field is found again under the
name it was listed under, and the one that may be left out has the absent
board as its default.
-/
import ConsoleBoard.Config.Layer
import ConsoleBoard.Config.Record
import ConsoleBoard.Toml.Basic
import Mathlib.Data.List.Forall2

namespace ConsoleBoard.Config

open Controller (Kind)

-- ========================================================== what is listed

def Ports.table (p : Ports) : Toml :=
  .table [("port1", .text p.one.name), ("port2", .text p.two.name),
    ("ext", .text p.ext.name)]

def chainTable (kinds : List Kind) : Toml :=
  .table [("devices", .array ((kinds.map Kind.name).map .text))]

/-- The record of a configuration. An absent board has no entry. -/
def table (c : Config) : Toml :=
  .table ([("cycles_per_line", .integer c.cyclesPerLine.toNat),
      ("lines_per_frame", .integer c.linesPerFrame.toNat)]
    ++ (c.eepromType.map fun index : Nat =>
      ("eeprom_type", Toml.integer index)).toList
    ++ [("ports", c.ports.table), ("team_player", chainTable c.chained)])

/-- The largest integer that every TOML document can hold: they are signed and
of 64 bits. -/
def maxInteger : Nat := 9223372036854775807

/-- Every number of the configuration is one that TOML has. The two counts are
words and always are. -/
def Writable (c : Config) : Prop := ∀ index ∈ c.eepromType, index ≤ maxInteger

-- ======================================================= what is looked up

/-- The field under a name is `x`: its value says so, or it is missing and `x`
is its default. -/
def Field {α : Type} (entries : List (String × Toml)) (name : String)
    (Says : Toml → α → Prop) (default x : α) : Prop :=
  match entries.lookup name with
  | some v => Says v x
  | none => x = default

/-- There are no names but these. -/
def Known (names : List String) (entries : List (String × Toml)) : Prop :=
  ∀ entry ∈ entries, entry.1 ∈ names

def SaysWord (v : Toml) (n : UInt32) : Prop := v = .integer n.toNat

def SaysIndex (v : Toml) (index : Option Nat) : Prop :=
  ∃ n : Nat, n ≤ maxInteger ∧ v = .integer n ∧ index = some n

def SaysKind (v : Toml) (kind : Kind) : Prop := v = .text kind.name

/-- A value that gives the kinds on the ports. -/
inductive GivenPorts : Toml → Ports → Prop
  | table {entries : List (String × Toml)} {p : Ports}
      (known : Known Ports.fieldNames entries)
      (one : Field entries "port1" SaysKind Kind.threeButton p.one)
      (two : Field entries "port2" SaysKind Kind.threeButton p.two)
      (ext : Field entries "ext" SaysKind Kind.none p.ext) :
      GivenPorts (.table entries) p

def SaysKinds (v : Toml) (kinds : List Kind) : Prop :=
  ∃ items, v = .array items ∧ List.Forall₂ SaysKind items kinds

/-- A value that gives the chained kinds. -/
inductive GivenChain : Toml → List Kind → Prop
  | table {entries : List (String × Toml)} {kinds : List Kind}
      (known : Known chainFieldNames entries)
      (devices : Field entries "devices" SaysKinds [] kinds) :
      GivenChain (.table entries) kinds

/-- A value that gives a configuration. -/
inductive Given : Toml → Config → Prop
  | table {entries : List (String × Toml)} {c : Config}
      (known : Known fieldNames entries)
      (cycles : Field entries "cycles_per_line" SaysWord
        defaultCyclesPerLine c.cyclesPerLine)
      (lines : Field entries "lines_per_frame" SaysWord
        defaultLinesPerFrame c.linesPerFrame)
      (board : Field entries "eeprom_type" SaysIndex none c.eepromType)
      (ports : Field entries "ports" GivenPorts {} c.ports)
      (chained : Field entries "team_player" GivenChain [] c.chained) :
      Given (.table entries) c

-- ================================================================ the laws

/-- What the library under the text layer is documented to do, where a text
denotes a value as the TOML format says. -/
structure TextLayer.Laws (layer : TextLayer) (Denotes : String → Toml → Prop) :
    Prop where
  writes : ∀ c : Config, c.Writable →
    ∃ text, layer.write c = .ok text ∧ Denotes text c.table
  reads : ∀ text v c, Denotes text v → Given v c → layer.read text = .ok c

-- =============================================================== agreement

/-- The table of the ports gives them. -/
private theorem given_ports (p : Ports) : GivenPorts p.table p :=
  .table (by simp [Known, Ports.fieldNames]) rfl rfl rfl

/-- A list of names says its kinds, one by one. -/
private theorem forall₂_saysKind (kinds : List Kind) :
    List.Forall₂ SaysKind ((kinds.map Kind.name).map .text) kinds := by
  induction kinds with
  | nil => exact .nil
  | cons kind rest ih => exact .cons rfl ih

/-- The table of a multitap gives what is chained to it. -/
private theorem given_chain (kinds : List Kind) :
    GivenChain (chainTable kinds) kinds :=
  .table (by simp [Known, chainFieldNames]) ⟨_, rfl, forall₂_saysKind kinds⟩

/-- The record of a configuration gives the configuration. -/
theorem given_table {c : Config} (h : c.Writable) : Given c.table c := by
  unfold table
  cases hindex : c.eepromType with
  | none =>
      refine .table (by simp [Known, fieldNames]) rfl rfl ?_
        (given_ports c.ports) (given_chain c.chained)
      rw [hindex]
      rfl
  | some index =>
      refine .table (by simp [Known, fieldNames]) rfl rfl ?_
        (given_ports c.ports) (given_chain c.chained)
      rw [hindex]
      exact ⟨index, h index hindex, rfl, rfl⟩

end ConsoleBoard.Config
