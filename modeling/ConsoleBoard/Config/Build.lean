/-
From a configuration to the machine that it describes. Every value is
checked before anything is built, in a fixed order, so the first fault is
the one that is reported.
-/
import ConsoleBoard.Config.Basic
import ConsoleBoard.Controller.Hub
import ConsoleBoard.Eeprom.Basic
import ConsoleBoard.Error

namespace ConsoleBoard.Config

-- =============================================================== the check

/-- The first fault among the values. -/
def fault? (c : Config) : Option Fault :=
  if c.cyclesPerLine = 0 then some .noCycles
  else if c.linesPerFrame = 0 then some .noLines
  else if maxFrame < c.frame then some (.longFrame c.frame)
  else
    match c.eepromType.filter fun index =>
      decide (Eeprom.Board.database.length ≤ index) with
    | some index => some (.unknownBoard index)
    | none =>
      if Controller.TeamPlayer.portCount < c.chained.length then
        some (.crowdedMultitap c.chained.length)
      else if .teamPlayer ∈ c.chained then some .chainedMultitap
      else none

/-- Refuse a configuration that makes no machine. -/
def validate (c : Config) : Except Config.Error Unit :=
  match c.fault? with
  | some fault => .error (.invalid fault)
  | none => .ok ()

-- ============================================================= the machine

/-- The kind of controller on a port. -/
def Ports.kind (p : Ports) : Controller.Port → Controller.Kind
  | .one => p.one
  | .two => p.two
  | .ext => p.ext

open Controller in
/-- Add devices and chain them to a multitap, from virtual port `port` on. -/
def chainFrom (tap port : Nat) : List Kind → Hub → Except Controller.Error Hub
  | [], hub => .ok hub
  | kind :: rest, hub => do
    let (id, hub) := hub.add (Device.create (.ofKind kind))
    chainFrom tap (port + 1) rest (← hub.attach tap port (some id))

open Controller in
/-- Connect a new device of the configured kind to a port. A Team Player gets
chained devices of its own. -/
def connect (c : Config) (hub : Hub) (port : Port) :
    Except Controller.Error Hub :=
  let kind := c.ports.kind port
  let (id, hub) := hub.connectNew port kind
  if kind = .teamPlayer then chainFrom id 0 c.chained hub else .ok hub

open Controller in
/-- The controller ports with the configured devices connected. -/
def buildHub (c : Config) : Except ConsoleBoard.Error Hub := do
  (c.validate).mapError .config
  (Port.all.foldlM c.connect Hub.empty).mapError .io

/-- The EEPROM with the configured board selected. -/
def buildEeprom (c : Config) : Except ConsoleBoard.Error Eeprom :=
  (Eeprom.blank.select c.eepromType).mapError .eeprom

end ConsoleBoard.Config
