/-
What a recorder on the bus writes down: one entry for each access, in order,
with the number of bytes that moved and what they were.
-/
import ConsoleBoard.Text.Hex

namespace ConsoleBoard.Bench

/-- One access on the bus. -/
inductive Access
  | readByte (address : UInt16) (v : UInt8)
  | writeByte (address : UInt16) (v : UInt8)
  | readWord (address w : UInt16)
  | writeWord (address w : UInt16)
  | input (port : UInt16) (v : UInt8)
  | output (port : UInt16) (v : UInt8)
  | acknowledge (vector answer : UInt8)
  | finished
deriving DecidableEq

namespace Access

private def byteText (v : UInt8) : String := Text.hexLower 2 v.toNat

private def wordText (w : UInt16) : String := Text.hexLower 4 w.toNat

/-- The written form of an access. -/
def text : Access → String
  | readByte address v => "R" ++ wordText address ++ "=" ++ byteText v
  | writeByte address v => "W" ++ wordText address ++ "=" ++ byteText v
  | readWord address w => "RW" ++ wordText address ++ "=" ++ wordText w
  | writeWord address w => "WW" ++ wordText address ++ "=" ++ wordText w
  | input port v => "I" ++ wordText port ++ "=" ++ byteText v
  | output port v => "O" ++ wordText port ++ "=" ++ byteText v
  | acknowledge vector answer =>
      "A" ++ byteText vector ++ "=" ++ byteText answer
  | finished => "RETI"

end Access

end ConsoleBoard.Bench
