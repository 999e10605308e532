/-
The status byte of a snapshot and its text. The text names the assigned bits
in order, joined by bars, and gives what is left as one hexadecimal number;
reading takes the same names and numbers in any order and keeps bits that
have no name.
-/
import ConsoleBoard.Text.Blank
import ConsoleBoard.Text.Hex

namespace ConsoleBoard.Z80

/-- The status of a core as one byte. -/
structure Status where
  bits : UInt8
deriving DecidableEq

namespace Status

def hasInt : UInt8 := 0x04
def hasNmi : UInt8 := 0x08
def running : UInt8 := 0x10
def halted : UInt8 := 0x20
def faulted : UInt8 := 0x80

/-- The assigned bits with their names. -/
def named : List (String × UInt8) :=
  [("HAS_INT", hasInt), ("HAS_NMI", hasNmi), ("RUNNING", running),
    ("HALTED", halted), ("FAULTED", faulted)]

/-- The bits without a name. -/
def spareMask : UInt8 := 0x43

def has (s : Status) (mask : UInt8) : Bool := s.bits &&& mask != 0

-- ==================================================================== text

/-- The text of a status; the empty one has no characters. -/
def text (s : Status) : String :=
  let names := (named.filter fun (_, mask) => s.has mask).map (·.1)
  let spare := s.bits &&& spareMask
  let rest := if spare = 0 then [] else ["0x" ++ Text.hexLower 1 spare.toNat]
  " | ".intercalate (names ++ rest)

/-- The bits of a hexadecimal number, which may carry a plus sign and must fit
a byte. -/
def hexBits? (digits : List Char) : Option UInt8 := do
  let n ← Text.ofDigits? 16 (match digits with
    | '+' :: rest => rest
    | _ => digits)
  if n < 256 then some (UInt8.ofNat n) else none

/-- The bits that one piece of the text stands for. -/
def pieceBits? (piece : List Char) : Option UInt8 :=
  match Text.trim piece with
  | '0' :: 'x' :: digits => hexBits? digits
  | name => named.lookup (String.ofList name)

/-- Read a status. -/
def ofText? (s : String) : Option Status :=
  if (Text.trim s.toList).isEmpty then some ⟨0⟩
  else do
    let masks ← (Text.splitAt '|' s.toList).mapM pieceBits?
    return ⟨masks.foldl (· ||| ·) 0⟩

end Status

end ConsoleBoard.Z80
