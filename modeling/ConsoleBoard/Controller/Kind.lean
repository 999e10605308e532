/-
The kinds of controller that a port can hold, and their written names.
-/

namespace ConsoleBoard.Controller

/-- A kind of controller. -/
inductive Kind
  /-- Nothing is connected. -/
  | none
  | twoButton
  | threeButton
  | sixButton
  | paddle
  | coleco
  | teamPlayer
deriving DecidableEq

namespace Kind

def all : List Kind :=
  [none, twoButton, threeButton, sixButton, paddle, coleco, teamPlayer]

def name : Kind → String
  | none => "none"
  | twoButton => "two_button"
  | threeButton => "three_button"
  | sixButton => "six_button"
  | paddle => "paddle"
  | coleco => "coleco_vision"
  | teamPlayer => "team_player"

def ofName? (s : String) : Option Kind := all.find? fun k => k.name == s

theorem ofName?_name (k : Kind) : ofName? k.name = some k := by
  cases k <;> decide

end Kind

/-- What a multitap needs to know of a device chained to it. -/
structure Chained where
  kind : Kind
  buttons : UInt32
deriving DecidableEq

end ConsoleBoard.Controller
