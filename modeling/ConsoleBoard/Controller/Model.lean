/-
The seven kinds of controller as one family, and a probe that answers
nothing and records what it sees of the lines.
-/
import ConsoleBoard.Controller.Coleco
import ConsoleBoard.Controller.Paddle
import ConsoleBoard.Controller.Pads
import ConsoleBoard.Controller.TeamPlayer

namespace ConsoleBoard.Controller

/-- A controller's own state: only multitaps have any. -/
inductive Model
  | none
  | twoButton
  | threeButton
  | sixButton
  | paddle
  | coleco
  | teamPlayer (tap : TeamPlayer)

namespace Model

/-- The model of a kind, with nothing chained. -/
def ofKind : Kind → Model
  | .none => none
  | .twoButton => twoButton
  | .threeButton => threeButton
  | .sixButton => sixButton
  | .paddle => paddle
  | .coleco => coleco
  | .teamPlayer => teamPlayer .empty

def kind : Model → Kind
  | none => .none
  | twoButton => .twoButton
  | threeButton => .threeButton
  | sixButton => .sixButton
  | paddle => .paddle
  | coleco => .coleco
  | teamPlayer _ => .teamPlayer

def hasDpad : Model → Bool
  | none | paddle | teamPlayer _ => false
  | twoButton | threeButton | sixButton | coleco => true

/-- The answer of each kind. -/
def drive (core : Core) : Model → Drive
  | none => core.drive 0xFF
  | twoButton => core.drive (Pad.twoButton core.buttons)
  | threeButton => core.drive (Pad.threeButton core.buttons (core.line .th))
  | sixButton => Pad.sixButtonDrive core
  | paddle => Paddle.drive core
  | coleco => Coleco.drive core
  | teamPlayer tap => tap.drive core

instance : Protocol Model where
  kind := kind
  hasDpad := hasDpad
  respond core m := (m.drive core, m)
  restartsOnScanline
    | sixButton => true
    | _ => false
  togglesOnRead
    | paddle => true
    | _ => false
  chained
    | teamPlayer tap => tap.ports.toList
    | _ => []
  chain m port sub :=
    match m with
    | teamPlayer tap => (tap.chain port sub).map teamPlayer
    | other => .ok other
  observe m port state :=
    match m with
    | teamPlayer tap => teamPlayer (tap.observe port state)
    | other => other

end Model

/-- A controller of one of the seven kinds. -/
abbrev Peripheral := Device Model

-- =================================================================== probe

/-- What a probe saw when it was asked to answer: the lines that were high,
had risen and had fallen. -/
structure Sighting where
  high : UInt8
  rose : UInt8
  fell : UInt8
deriving DecidableEq

/-- A probe and its sightings from the back. -/
structure Probe where
  sightings : List Sighting := []

/-- The mask of the lines for which a test holds. -/
def linesWhere (test : Pin → Bool) : UInt8 :=
  (Pin.named.filter fun (_, pin) => test pin).foldl
    (fun mask (_, pin) => mask ||| pin.mask) 0

def Sighting.of (core : Core) : Sighting where
  high := linesWhere core.line
  rose := linesWhere core.rose
  fell := linesWhere core.fell

instance : Protocol Probe where
  kind _ := .none
  hasDpad _ := true
  respond core p :=
    (core.drive core.deviceData, ⟨Sighting.of core :: p.sightings⟩)
  restartsOnScanline _ := false
  togglesOnRead _ := false
  chained _ := []
  chain p _ _ := .ok p
  observe p _ _ := p

end ConsoleBoard.Controller
