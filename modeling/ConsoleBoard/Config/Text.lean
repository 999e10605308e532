/-
A text layer for configurations: a TOML document with the two counts and the
EEPROM board first, then a table for the ports and one for the chained
controllers. Reading takes every TOML document with these fields.
-/
import ConsoleBoard.Config.Layer
import ConsoleBoard.Config.Record
import ConsoleBoard.Toml.Reader
import ConsoleBoard.Toml.Record

namespace ConsoleBoard.Config

-- ================================================================= reading

def kindOfToml? (v : Toml) : Option Controller.Kind :=
  v.tag?.bind Controller.Kind.ofName?

def Ports.ofToml? (v : Toml) : Option Ports := do
  let [one, two, ext] ← v.fields? Ports.fieldNames | none
  let standard : Ports := {}
  return {
    one := ← Toml.orElse standard.one kindOfToml? one
    two := ← Toml.orElse standard.two kindOfToml? two
    ext := ← Toml.orElse standard.ext kindOfToml? ext }

def chainOfToml? (v : Toml) : Option (List Controller.Kind) := do
  let [devices] ← v.fields? chainFieldNames | none
  Toml.orElse [] (Toml.list? kindOfToml?) devices

/-- Read a configuration; every field may be missing. -/
def ofToml? (v : Toml) : Option Config := do
  let [cycles, lines, eeprom, ports, chained] ← v.fields? fieldNames | none
  let standard : Config := {}
  return {
    cyclesPerLine := ← Toml.orElse standard.cyclesPerLine Toml.word32? cycles
    linesPerFrame := ← Toml.orElse standard.linesPerFrame Toml.word32? lines
    eepromType := ← Toml.orElse none (fun v => v.count?.map some) eeprom
    ports := ← Toml.orElse {} Ports.ofToml? ports
    chained := ← Toml.orElse [] chainOfToml? chained }

-- ================================================================= writing

/-- One line of a table. -/
def entry (key value : String) : String := key ++ " = " ++ value

/-- A name in quotes. The names of kinds need no escapes. -/
def quotedKind (kind : Controller.Kind) : String := "\"" ++ kind.name ++ "\""

/-- The lines of the written form. -/
def lines (c : Config) : List String :=
  [entry "cycles_per_line" (toString c.cyclesPerLine.toNat),
    entry "lines_per_frame" (toString c.linesPerFrame.toNat)]
    ++ (c.eepromType.map fun index =>
      entry "eeprom_type" (toString index)).toList
    ++ ["",
      "[ports]",
      entry "port1" (quotedKind c.ports.one),
      entry "port2" (quotedKind c.ports.two),
      entry "ext" (quotedKind c.ports.ext),
      "",
      "[team_player]",
      entry "devices"
        ("[" ++ ", ".intercalate (c.chained.map quotedKind) ++ "]")]

/-- The written form. -/
def text (c : Config) : String :=
  String.join (c.lines.map fun line => line ++ "\n")

-- ==================================================================== both

/-- TOML documents as the text layer. -/
def TextLayer.toml : TextLayer where
  write c := .ok c.text
  read text :=
    match (Toml.parse? text).bind ofToml? with
    | some c => .ok c
    | none => .error "no configuration"

end ConsoleBoard.Config
