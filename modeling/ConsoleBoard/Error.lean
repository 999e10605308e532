/-
Every reason for which the library refuses a call, under the part that
refuses it.
-/
import ConsoleBoard.Config.Error
import ConsoleBoard.Controller.Error
import ConsoleBoard.Eeprom.Error
import ConsoleBoard.Z80.FetchMap

namespace ConsoleBoard

/-- A refused call. -/
inductive Error
  | cpu (e : Z80.FetchError)
  | eeprom (e : Eeprom.Error)
  | io (e : Controller.Error)
  | config (e : Config.Error)
  /-- A file that cannot be read or written. -/
  | file
deriving DecidableEq

def Error.message : Error → String
  | cpu e => "CPU error: " ++ e.message
  | eeprom e => "EEPROM error: " ++ e.message
  | io e => "I/O device error: " ++ e.message
  | config e => "Configuration error: " ++ e.message
  | file => "File error"

end ConsoleBoard
