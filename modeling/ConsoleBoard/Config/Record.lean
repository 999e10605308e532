/-
The JSON form of configurations. Names that are no field are refused, since
they are more likely misspelt than meant for another reader.
-/
import ConsoleBoard.Config.Basic
import ConsoleBoard.Json.Record

namespace ConsoleBoard.Config

def kindJson (kind : Controller.Kind) : Json := .text kind.name

def kindOfJson? (j : Json) : Option Controller.Kind :=
  j.tag?.bind Controller.Kind.ofName?

def word32OfJson? (j : Json) : Option UInt32 :=
  (j.between? 0 4294967295).map fun n => UInt32.ofNat n.toNat

/-- The fields of a configuration, in order. -/
def fieldNames : List String :=
  ["cycles_per_line", "lines_per_frame", "eeprom_type", "ports", "team_player"]

namespace Ports

/-- The fields of the ports, in order. -/
def fieldNames : List String := ["port1", "port2", "ext"]

def toJson (p : Ports) : Json :=
  .record [("port1", kindJson p.one), ("port2", kindJson p.two),
    ("ext", kindJson p.ext)]

def ofJson? (j : Json) : Option Ports := do
  let [one, two, ext] ← j.fields? fieldNames true | none
  let standard : Ports := {}
  return {
    one := ← Json.orElse standard.one kindOfJson? one
    two := ← Json.orElse standard.two kindOfJson? two
    ext := ← Json.orElse standard.ext kindOfJson? ext }

end Ports

/-- The fields of the record of chained controllers. -/
def chainFieldNames : List String := ["devices"]

def chainToJson (kinds : List Controller.Kind) : Json :=
  .record [("devices", .arr (kinds.map kindJson))]

def chainOfJson? (j : Json) : Option (List Controller.Kind) := do
  let [devices] ← j.fields? chainFieldNames true | none
  Json.orElse [] (Json.list? kindOfJson?) devices

def toJson (c : Config) : Json :=
  .record [
    ("cycles_per_line", .nat c.cyclesPerLine.toNat),
    ("lines_per_frame", .nat c.linesPerFrame.toNat),
    ("eeprom_type", (c.eepromType.map Json.nat).getD .null),
    ("ports", c.ports.toJson),
    ("team_player", chainToJson c.chained)]

/-- Read a configuration; every field may be missing. -/
def ofJson? (j : Json) : Option Config := do
  let [cycles, lines, eeprom, ports, chained] ← j.fields? fieldNames true | none
  let standard : Config := {}
  return {
    cyclesPerLine := ← Json.orElse standard.cyclesPerLine word32OfJson? cycles
    linesPerFrame := ← Json.orElse standard.linesPerFrame word32OfJson? lines
    eepromType := ← Json.orElse none (Json.nullable? Json.count?) eeprom
    ports := ← Json.orElse {} Ports.ofJson? ports
    chained := ← Json.orElse [] chainOfJson? chained }

end ConsoleBoard.Config
