/-
Why a part is refused. Traffic on the lines is never refused.
-/
import ConsoleBoard.Eeprom.Chip
import ConsoleBoard.Text.Hex

namespace ConsoleBoard.Eeprom

/-- A refused selection. -/
inductive Error
  | invalidType (index max : Nat)
  | tooLarge (chip : Chip)
  | pageOutsideSize (chip : Chip)
deriving DecidableEq

def Error.message : Error → String
  | invalidType index max =>
    "Invalid EEPROM type: " ++ toString index ++ " (valid range: 0-"
      ++ toString max ++ ")"
  | tooLarge chip =>
    "Invalid EEPROM geometry for " ++ chip.name ++ ": size mask 0x"
      ++ Text.hexUpper 4 chip.sizeMask.toNat ++ " exceeds 0x"
      ++ Text.hexUpper 4 storageSize
      ++ " bytes"
  | pageOutsideSize chip =>
    "Invalid EEPROM geometry for " ++ chip.name ++ ": page mask 0x"
      ++ Text.hexUpper 4 chip.pageMask.toNat ++ " outside size mask 0x"
      ++ Text.hexUpper 4 chip.sizeMask.toNat

end ConsoleBoard.Eeprom
